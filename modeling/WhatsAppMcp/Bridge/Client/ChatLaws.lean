import WhatsAppMcp.Bridge.Client.Events
import WhatsAppMcp.Lib.Trace

/-!
# Unread counts and recency

What the two handlers leave in the chats table, over any sequence of live
messages, history syncs and chats that are read.

* `runs_processMessage`, `runs_processHistorySync`: the table after a handler.
* `unread_law_iff`: the counts are right as long as no inbound message comes,
  since the second upsert of a message stores the count zero over the increment.
* `recency_of_orderly`: a chat shows its newest message as long as what arrives
  is not older than what it has, since every upsert stores its own time.
-/

namespace WhatsAppMcp.Bridge.Client

open Calls Store
open Trace (Exec)

/-! ## The table after a handler -/

/-- The table after `processMessage`. -/
def afterMessage (t : Chats) (evt : MessageEvent) : Chats :=
  let ensured := t.upsertChat (evt.chat "")
  let counted := if evt.isFromMe = false then ensured.incrementUnread evt.chatJid else ensured
  counted.upsertChat (evt.chat (preview evt.row))

/-- The rows of the messages of a conversation. -/
def Conversation.rows (conv : Conversation) : List MessageRow :=
  conv.messages.filterMap fun wm => wm.map conv.row

/-- `latestTime` and `latestPreview` at the end of the loop. -/
def Conversation.latest (conv : Conversation) : Int × String := conv.rows.foldl later (zeroTime, "")

/-- The server of the conversation, where the handler stores it. -/
def Conversation.stored? (conv : Conversation) : Option String :=
  if conv.id = "" then none else conv.server

/-- The table after one conversation. -/
def afterConversation (t : Chats) (conv : Conversation) : Chats :=
  match conv.stored? with
  | none => t
  | some server =>
    let ensured := t.upsertChat (conv.chat server zeroTime "")
    if conv.latest.1 ≠ zeroTime then
      ensured.upsertChat (conv.chat server conv.latest.1 conv.latest.2)
    else ensured

section Runs

variable {α : Type} {t u : Chats} {conv : Conversation}

theorem runs_upsertChat {row : ChatRow} {f : Bool → Handler α} {a : α} :
    (call (.upsertChat row) >>= f).Runs Succeeds t (.ok a) u ↔
      (f true).Runs Succeeds (t.upsertChat row) (.ok a) u := by
  constructor
  · intro h
    obtain ⟨ok, v, ⟨hanswer, rfl⟩, hrest⟩ := h
    cases hanswer
    exact hrest
  · exact fun h => ⟨true, _, ⟨.upsertChat, rfl⟩, h⟩

theorem runs_incrementUnread {jid : String} {f : Bool → Handler α} {a : α} :
    (call (.incrementUnread jid) >>= f).Runs Succeeds t (.ok a) u ↔
      (f true).Runs Succeeds (t.incrementUnread jid) (.ok a) u := by
  constructor
  · intro h
    obtain ⟨ok, v, ⟨hanswer, rfl⟩, hrest⟩ := h
    cases hanswer
    exact hrest
  · exact fun h => ⟨true, _, ⟨.incrementUnread, rfl⟩, h⟩

theorem runs_saveMessage {m : MessageRow} {request : Option NotificationRequest}
    {f : SaveResult → Handler α} {a : α} :
    (call (.saveMessage m request) >>= f).Runs Succeeds t (.ok a) u ↔
      ∃ written, (f (.ok written)).Runs Succeeds t (.ok a) u := by
  constructor
  · intro h
    obtain ⟨result, v, ⟨hanswer, written, rfl⟩, hrest⟩ := h
    cases hanswer
    exact ⟨written, hrest⟩
  · intro h
    obtain ⟨written, hrest⟩ := h
    exact ⟨.ok written, t, ⟨.saveMessage, written, rfl⟩, hrest⟩

theorem runs_processMessage {evt : MessageEvent} :
    (processMessage evt).Runs Succeeds t (.ok ()) u ↔ u = afterMessage t evt := by
  unfold processMessage afterMessage
  rw [runs_upsertChat]
  cases evt.isFromMe with
  | true =>
    simp only [Bool.true_eq_false, if_false]
    show ((call _ >>= _ : Handler Unit)).Runs _ _ _ _ ↔ _
    rw [runs_upsertChat, runs_saveMessage]
    exact ⟨fun ⟨_, h⟩ => h.2, fun h => ⟨.inserted, rfl, h⟩⟩
  | false =>
    simp only [if_true]
    show ((call _ >>= fun _ => (call _ >>= _) : Handler Unit)).Runs _ _ _ _ ↔ _
    rw [runs_incrementUnread, runs_upsertChat, runs_saveMessage]
    exact ⟨fun ⟨_, h⟩ => h.2, fun h => ⟨.inserted, rfl, h⟩⟩

theorem runs_syncMessages {messages : List (Option WebMessage)} {latest r : Int × String} :
    (syncMessages conv messages latest).Runs Succeeds t (.ok r) u ↔
      r = (messages.filterMap fun wm => wm.map conv.row).foldl later latest ∧ u = t := by
  induction messages generalizing latest with
  | nil => simp [syncMessages]
  | cons wm rest ih =>
    cases wm with
    | none => exact ih
    | some wm =>
      rw [syncMessages, runs_saveMessage]
      constructor
      · intro h
        obtain ⟨written, hrest⟩ := h
        exact ih.mp hrest
      · exact fun h => ⟨.inserted, ih.mpr h⟩

theorem runs_syncConversation :
    (syncConversation conv).Runs Succeeds t (.ok ()) u ↔ u = afterConversation t conv := by
  unfold syncConversation afterConversation Conversation.stored?
  split
  · simp
  · cases conv.server with
    | none => simp
    | some server =>
      show (call _ >>= _ : Handler Unit).Runs _ _ _ _ ↔ _
      rw [runs_upsertChat]
      simp only [if_true, Prog.runs_bind_ok, runs_syncMessages]
      have hlatest : (conv.messages.filterMap fun wm => wm.map conv.row).foldl later (zeroTime, "") =
          conv.latest := rfl
      rw [hlatest]
      constructor
      · intro h
        obtain ⟨latest, v, ⟨rfl, rfl⟩, hrest⟩ := h
        split at hrest
        · next hzero =>
          rw [if_pos hzero]
          exact (runs_upsertChat.mp hrest).2
        · next hzero =>
          rw [if_neg hzero]
          exact hrest.2
      · intro h
        refine ⟨_, _, ⟨rfl, rfl⟩, ?_⟩
        split
        · next hzero =>
          rw [if_pos hzero] at h
          exact runs_upsertChat.mpr ⟨rfl, h⟩
        · next hzero =>
          rw [if_neg hzero] at h
          exact ⟨rfl, h⟩

theorem runs_processHistorySync {convs : List Conversation} :
    (processHistorySync convs).Runs Succeeds t (.ok ()) u ↔ u = convs.foldl afterConversation t := by
  induction convs generalizing t with
  | nil => simp [processHistorySync]
  | cons conv rest ih =>
    rw [processHistorySync, Prog.runs_bind_ok, List.foldl_cons]
    constructor
    · intro h
      obtain ⟨done, v, hconv, hrest⟩ := h
      rw [← runs_syncConversation.mp hconv]
      exact ih.mp hrest
    · exact fun h => ⟨(), _, runs_syncConversation.mpr rfl, ih.mpr h⟩

end Runs

/-! ## Runs -/

/-- A call that writes the chats. -/
inductive ChatCall where
  | message (evt : MessageEvent)
  | history (convs : List Conversation)
  | read (jid : String)

/-- A call runs, and all its statements succeed. -/
inductive ChatStep : Chats → ChatCall → Chats → Prop
  | message {t u : Chats} {evt : MessageEvent}
      (hrun : (processMessage evt).Runs Succeeds t (.ok ()) u) : ChatStep t (.message evt) u
  | history {t u : Chats} {convs : List Conversation}
      (hrun : (processHistorySync convs).Runs Succeeds t (.ok ()) u) : ChatStep t (.history convs) u
  | read {t : Chats} {jid : String} : ChatStep t (.read jid) (t.markChatRead jid)

/-- What a call leaves. -/
def ChatCall.apply (t : Chats) : ChatCall → Chats
  | .message evt => afterMessage t evt
  | .history convs => convs.foldl afterConversation t
  | .read jid => t.markChatRead jid

theorem chatStep_iff {t u : Chats} {c : ChatCall} : ChatStep t c u ↔ u = c.apply t := by
  constructor
  · intro h
    cases h with
    | message hrun => exact runs_processMessage.mp hrun
    | history hrun => exact runs_processHistorySync.mp hrun
    | read => rfl
  · rintro rfl
    cases c with
    | message evt => exact .message (runs_processMessage.mpr rfl)
    | history convs => exact .history (runs_processHistorySync.mpr rfl)
    | read jid => exact .read

/-- The calls may run in any order. -/
theorem chats_exec (t : Chats) (es : List ChatCall) :
    Exec ChatStep t es (es.foldl ChatCall.apply t) := by
  induction es using List.reverseRecOn with
  | nil => exact .nil
  | append_singleton es c ih =>
    rw [List.foldl_append]
    exact ih.snoc (chatStep_iff.mpr rfl)

/-! ## Unread counts -/

/-- The count of a chat after one more call, as it should be. -/
def tally (jid : String) (n : Nat) : ChatCall → Nat
  | .message evt => if evt.chatJid = jid ∧ evt.isFromMe = false then n + 1 else n
  | .history _ => n
  | .read other => if other = jid then 0 else n

/-- The inbound messages of a chat since it was last read. -/
def unreadSince (es : List ChatCall) (jid : String) : Nat := es.foldl (tally jid) 0

theorem unread_afterMessage {t : Chats} {evt : MessageEvent} {jid : String} :
    (afterMessage t evt).unread jid = if jid = evt.chatJid then 0 else t.unread jid := by
  unfold afterMessage
  rw [Chats.unread_upsertChat]
  show (if jid = evt.chatJid then 0 else _) = _
  split
  · rfl
  · next hjid =>
    have hensured : (t.upsertChat (evt.chat "")).unread jid = t.unread jid := by
      rw [Chats.unread_upsertChat]
      exact if_neg hjid
    split
    · rw [Chats.unread_incrementUnread_of_ne hjid, hensured]
    · exact hensured

theorem unread_afterConversation {t : Chats} {conv : Conversation} {jid : String}
    (h : t.unread jid = 0) : (afterConversation t conv).unread jid = 0 := by
  have hupsert : ∀ (t : Chats) (row : ChatRow), t.unread jid = 0 → row.unreadCount = 0 →
      (t.upsertChat row).unread jid = 0 := by
    intro t row ht hrow
    rw [Chats.unread_upsertChat, hrow, ht, ite_self]
  unfold afterConversation
  split
  · exact h
  · next server hstored =>
    have hensured := hupsert t (conv.chat server zeroTime "") h rfl
    show (if _ then _ else _ : Chats).unread jid = 0
    split
    · exact hupsert _ _ hensured rfl
    · exact hensured

/-- No call leaves anything unread. -/
theorem unread_apply {t : Chats} {c : ChatCall} (h : ∀ jid, t.unread jid = 0) (jid : String) :
    (c.apply t).unread jid = 0 := by
  cases c with
  | message evt => rw [ChatCall.apply, unread_afterMessage, h, ite_self]
  | history convs =>
    show (convs.foldl afterConversation t).unread jid = 0
    induction convs generalizing t with
    | nil => exact h jid
    | cons conv rest ih => exact ih fun jid => unread_afterConversation (h jid)
  | read other => rw [ChatCall.apply, Chats.unread_markChatRead, h, ite_self]

theorem unread_run {es : List ChatCall} {t : Chats} (h : Exec ChatStep .empty es t)
    (jid : String) : t.unread jid = 0 :=
  h.invariant (P := fun t => ∀ jid, t.unread jid = 0) (fun _ => rfl)
    (fun _ _ _ ht hstep => chatStep_iff.mp hstep ▸ unread_apply ht) jid

theorem unreadSince_snoc {es : List ChatCall} {c : ChatCall} {jid : String} :
    unreadSince (es ++ [c]) jid = tally jid (unreadSince es jid) c := by
  simp [unreadSince]

/-- Without inbound messages nothing is unread. -/
theorem unreadSince_outbound {es : List ChatCall}
    (h : ∀ evt, .message evt ∈ es → evt.isFromMe = true) (jid : String) : unreadSince es jid = 0 := by
  induction es using List.reverseRecOn with
  | nil => rfl
  | append_singleton es c ih =>
    rw [unreadSince_snoc, ih fun evt hevt => h evt (List.mem_append_left _ hevt)]
    cases c with
    | message evt =>
      have hown := h evt (List.mem_append_right _ (List.mem_singleton.mpr rfl))
      simp [tally, hown]
    | history convs => rfl
    | read other => simp [tally]

/-- The counts are right in every state of a run, exactly when no message of it
is inbound. -/
theorem unread_law_iff (es : List ChatCall) :
    (∀ pre t, pre <+: es → Exec ChatStep .empty pre t → ∀ jid, t.unread jid = unreadSince pre jid) ↔
      ∀ evt, .message evt ∈ es → evt.isFromMe = true := by
  constructor
  · intro h evt hevt
    obtain ⟨pre, post, rfl⟩ := List.append_of_mem hevt
    have hprefix : pre ++ [.message evt] <+: pre ++ .message evt :: post := ⟨post, by simp⟩
    have hrun := chats_exec .empty (pre ++ [.message evt])
    have hlaw := h _ _ hprefix hrun evt.chatJid
    rw [unread_run hrun, unreadSince_snoc] at hlaw
    cases hinbound : evt.isFromMe with
    | true => rfl
    | false => simp [tally, hinbound] at hlaw
  · intro h pre t hpre hrun jid
    rw [unread_run hrun, unreadSince_outbound fun evt hevt => h evt (hpre.subset hevt)]

/-- An inbound text in a group. -/
def sampleInbound : MessageEvent where
  id := "message-1"
  chatJid := "1@g.us"
  chatServer := groupServer
  chatName := "Group 1"
  sender := "1@s.whatsapp.net"
  senderUser := "1"
  pushName := ""
  timestamp := 1000000000
  isFromMe := false
  message := some ⟨"hello", none, none, none, none, none⟩
  stamp := "20260101_000000"
  candidate := none

/-- After one inbound message nothing is counted. -/
theorem unread_lost_of_sampleInbound :
    ¬ ∀ es t, Exec ChatStep .empty es t → ∀ jid, t.unread jid = unreadSince es jid := by
  intro h
  have hlaw := h _ _ (chats_exec .empty [.message sampleInbound]) "1@g.us"
  exact absurd hlaw (by decide)

/-! ## Recency -/

/-- A message that has arrived, with its time as the column holds it. -/
structure Arrival where
  time : Int
  preview : String
  deriving DecidableEq, Repr

/-- The messages that one upsert of a chat is about: one live message, or those of
a history conversation. -/
structure Batch where
  jid : String
  live : Bool
  arrivals : List Arrival
  deriving DecidableEq, Repr

/-- The message of a row. -/
def arrivalOf (m : MessageRow) : Arrival := ⟨truncateMicrosecond m.timestamp, preview m⟩

/-- The batch of a conversation that the handler stores. -/
def Conversation.batch (conv : Conversation) : Option Batch :=
  conv.stored?.map fun _ => ⟨conv.id, false, conv.rows.map arrivalOf⟩

/-- The batches of a call. -/
def ChatCall.batches : ChatCall → List Batch
  | .message evt => [⟨evt.chatJid, true, [arrivalOf evt.row]⟩]
  | .history convs => convs.filterMap Conversation.batch
  | .read _ => []

/-- The messages that were processed for a chat. -/
def processed (bs : List Batch) (jid : String) : List Arrival :=
  bs.flatMap fun b => if b.jid = jid then b.arrivals else []

/-- The time is the greatest of these messages, and the preview is of a message
with that time. -/
structure Newest (arrivals : List Arrival) (p : Int × String) : Prop where
  upper : ∀ a ∈ arrivals, a.time ≤ p.1
  attained : ∃ a ∈ arrivals, (a.time, a.preview) = p

/-- Every chat for which a message was processed shows the newest one. -/
def Recent (t : Chats) (bs : List Batch) : Prop :=
  ∀ jid, processed bs jid ≠ [] → ∃ p, t.shown jid = some p ∧ Newest (processed bs jid) p

/-- The batch brings a message that is not older than those before it; a
conversation needs one after the zero time, or a chat without messages. -/
def Batch.Fits (b : Batch) (before : List Arrival) : Prop :=
  (∃ a ∈ b.arrivals, (b.live = true ∨ zeroTime < a.time) ∧ ∀ x ∈ before, x.time ≤ a.time) ∨
    b.arrivals = [] ∧ before = []

/-- Every batch fits what was processed before it. -/
def Orderly (bs : List Batch) : Prop :=
  ∀ pre b post, bs = pre ++ b :: post → b.Fits (processed pre b.jid)

theorem Orderly.of_append {bs cs : List Batch} (h : Orderly (bs ++ cs)) : Orderly bs := by
  intro pre b post hsplit
  exact h pre b (post ++ cs) (by rw [hsplit, List.append_assoc, List.cons_append])

theorem processed_append {bs cs : List Batch} {jid : String} :
    processed (bs ++ cs) jid = processed bs jid ++ processed cs jid :=
  List.flatMap_append

theorem processed_self {b : Batch} : processed [b] b.jid = b.arrivals := by
  simp [processed]

theorem processed_of_ne {b : Batch} {jid : String} (h : b.jid ≠ jid) : processed [b] jid = [] := by
  simp [processed, h]

/-- The table goes on to be recent when a batch leaves its newest message. -/
theorem Recent.snoc {t u : Chats} {bs : List Batch} {b : Batch} {p : Int × String}
    (h : Recent t bs)
    (hshown : ∀ jid, u.shown jid = if jid = b.jid then some p else t.shown jid)
    (hnewest : processed bs b.jid ++ b.arrivals ≠ [] → Newest (processed bs b.jid ++ b.arrivals) p) :
    Recent u (bs ++ [b]) := by
  intro jid hne
  rw [processed_append] at hne ⊢
  by_cases hjid : jid = b.jid
  · subst hjid
    rw [processed_self] at hne ⊢
    exact ⟨p, by rw [hshown, if_pos rfl], hnewest hne⟩
  · rw [processed_of_ne (Ne.symm hjid), List.append_nil] at hne ⊢
    rw [hshown, if_neg hjid]
    exact h jid hne

/-! ### What a batch leaves -/

theorem shown_afterMessage {t : Chats} {evt : MessageEvent} (jid : String) :
    (afterMessage t evt).shown jid =
      if jid = evt.chatJid then some (truncateMicrosecond evt.timestamp, preview evt.row)
      else t.shown jid := by
  unfold afterMessage
  rw [Chats.shown_upsertChat]
  show (if jid = evt.chatJid then some (truncateMicrosecond evt.timestamp, preview evt.row) else _) = _
  split
  · rfl
  · next hjid =>
    have hensured : (t.upsertChat (evt.chat "")).shown jid = t.shown jid := by
      rw [Chats.shown_upsertChat]
      exact if_neg hjid
    split
    · rw [Chats.shown_incrementUnread, hensured]
    · exact hensured

/-- Only a later message takes the place of the latest one. -/
theorem foldl_later (rows : List MessageRow) (init : Int × String) :
    (rows.foldl later init = init ∨
        ∃ m ∈ rows, rows.foldl later init = (m.timestamp, preview m) ∧ init.1 < m.timestamp) ∧
      init.1 ≤ (rows.foldl later init).1 ∧ ∀ m ∈ rows, m.timestamp ≤ (rows.foldl later init).1 := by
  induction rows generalizing init with
  | nil => simp
  | cons m rest ih =>
    obtain ⟨hfrom, hinit, hall⟩ := ih (later init m)
    have hstep : init.1 ≤ (later init m).1 ∧ m.timestamp ≤ (later init m).1 ∧
        (later init m = init ∨ later init m = (m.timestamp, preview m) ∧ init.1 < m.timestamp) := by
      unfold later
      split
      · next hlt => exact ⟨by show init.1 ≤ m.timestamp; omega, le_refl _, .inr ⟨rfl, hlt⟩⟩
      · next hle => exact ⟨le_refl _, by omega, .inl rfl⟩
    rw [List.foldl_cons]
    refine ⟨?_, by omega, ?_⟩
    · rcases hfrom with hsame | ⟨x, hx, hlast, hlt⟩
      · rw [hsame]
        rcases hstep.2.2 with hkept | ⟨hnew, hlt⟩
        · exact .inl hkept
        · exact .inr ⟨m, List.mem_cons_self, hnew, hlt⟩
      · exact .inr ⟨x, List.mem_cons_of_mem _ hx, hlast, by omega⟩
    · intro x hx
      rcases List.mem_cons.mp hx with rfl | hx
      · omega
      · exact hall x hx

theorem truncate_unixTime (t : UInt64) : truncateMicrosecond (unixTime t) = unixTime t := by
  unfold truncateMicrosecond unixTime
  omega

theorem Conversation.truncate_row {conv : Conversation} {m : MessageRow} (h : m ∈ conv.rows) :
    truncateMicrosecond m.timestamp = m.timestamp := by
  obtain ⟨wm, -, hrow⟩ := List.mem_filterMap.mp h
  obtain ⟨wm, -, rfl⟩ := Option.map_eq_some_iff.mp hrow
  exact truncate_unixTime wm.timestamp

/-- The latest message of a conversation, as the column holds it. -/
theorem Conversation.truncate_latest {conv : Conversation} :
    truncateMicrosecond conv.latest.1 = conv.latest.1 := by
  rcases (foldl_later conv.rows (zeroTime, "")).1 with hinit | ⟨m, hm, hlast, -⟩
  · rw [Conversation.latest, hinit]
    rfl
  · rw [Conversation.latest, hlast]
    exact conv.truncate_row hm

theorem shown_afterConversation {t : Chats} {conv : Conversation} {server : String}
    (hstored : conv.stored? = some server) (jid : String) :
    (afterConversation t conv).shown jid = if jid = conv.id then some conv.latest else t.shown jid := by
  unfold afterConversation
  rw [hstored]
  show (if _ then _ else _ : Chats).shown jid = _
  split
  · rw [Chats.shown_upsertChat]
    show (if jid = conv.id then some (truncateMicrosecond conv.latest.1, conv.latest.2) else _) = _
    rw [Conversation.truncate_latest]
    split
    · rfl
    · next hjid =>
      rw [Chats.shown_upsertChat]
      exact if_neg hjid
  · next hzero =>
    rw [Chats.shown_upsertChat]
    show (if jid = conv.id then some (truncateMicrosecond zeroTime, "") else _) = _
    have hlatest : conv.latest = (zeroTime, "") := by
      rcases (foldl_later conv.rows (zeroTime, "")).1 with hinit | ⟨m, hm, hlast, hlt⟩
      · exact hinit
      · have heq : conv.latest.1 = m.timestamp := congrArg Prod.fst hlast
        exact absurd (heq ▸ hlt) (by rw [not_not.mp hzero]; exact lt_irrefl _)
    rw [hlatest]
    rfl

/-- The latest message of a conversation that fits is the newest one. -/
theorem Conversation.newest {conv : Conversation} {before : List Arrival}
    (hfits : Batch.Fits ⟨conv.id, false, conv.rows.map arrivalOf⟩ before)
    (hne : before ++ conv.rows.map arrivalOf ≠ []) :
    Newest (before ++ conv.rows.map arrivalOf) conv.latest := by
  rcases hfits with ⟨a, ha, hlate, hbefore⟩ | ⟨hnone, rfl⟩
  · obtain ⟨m, hm, rfl⟩ := List.mem_map.mp ha
    have hafter : zeroTime < m.timestamp := by
      rw [← conv.truncate_row hm]
      exact hlate.resolve_left nofun
    obtain ⟨hfrom, -, hall⟩ := foldl_later conv.rows (zeroTime, "")
    have hupper : ∀ x ∈ conv.rows, (arrivalOf x).time ≤ conv.latest.1 := by
      intro x hx
      show truncateMicrosecond x.timestamp ≤ _
      rw [conv.truncate_row hx]
      exact hall x hx
    constructor
    · intro x hx
      rcases List.mem_append.mp hx with hx | hx
      · exact le_trans (hbefore x hx) (hupper m hm)
      · obtain ⟨y, hy, rfl⟩ := List.mem_map.mp hx
        exact hupper y hy
    · rcases hfrom with hinit | ⟨x, hx, hlast, -⟩
      · exact absurd (hall m hm) (by rw [hinit]; exact not_le.mpr hafter)
      · refine ⟨arrivalOf x, List.mem_append_right _ (List.mem_map.mpr ⟨x, hx, rfl⟩), ?_⟩
        show (truncateMicrosecond x.timestamp, preview x) = conv.latest
        rw [conv.truncate_row hx]
        exact hlast.symm
  · exact absurd (show conv.rows.map arrivalOf = [] from hnone) (by simpa using hne)

/-! ### A run -/

theorem Recent.history {t : Chats} {bs : List Batch} {convs : List Conversation} (h : Recent t bs)
    (hord : Orderly (bs ++ convs.filterMap Conversation.batch)) :
    Recent (convs.foldl afterConversation t) (bs ++ convs.filterMap Conversation.batch) := by
  induction convs generalizing t bs with
  | nil => simpa using h
  | cons conv rest ih =>
    rw [List.foldl_cons]
    cases hstored : conv.stored? with
    | none =>
      have hbatch : conv.batch = none := by rw [Conversation.batch, hstored]; rfl
      have hsame : afterConversation t conv = t := by rw [afterConversation, hstored]
      rw [List.filterMap_cons_none hbatch] at hord ⊢
      rw [hsame]
      exact ih h hord
    | some server =>
      have hbatch : conv.batch = some ⟨conv.id, false, conv.rows.map arrivalOf⟩ := by
        rw [Conversation.batch, hstored]; rfl
      rw [List.filterMap_cons_some hbatch] at hord ⊢
      have hfits := hord bs _ _ rfl
      rw [← List.singleton_append, ← List.append_assoc] at hord ⊢
      exact ih (h.snoc (shown_afterConversation hstored) (conv.newest hfits)) hord

theorem Recent.apply {t : Chats} {bs : List Batch} {c : ChatCall} (h : Recent t bs)
    (hord : Orderly (bs ++ c.batches)) : Recent (c.apply t) (bs ++ c.batches) := by
  cases c with
  | message evt =>
    refine h.snoc shown_afterMessage fun hne => ?_
    rcases hord bs _ _ rfl with ⟨a, ha, -, hbefore⟩ | ⟨hnone, -⟩
    · obtain rfl := List.mem_singleton.mp ha
      constructor
      · intro x hx
        rcases List.mem_append.mp hx with hx | hx
        · exact hbefore x hx
        · rw [List.mem_singleton.mp hx]
          exact le_refl _
      · exact ⟨_, List.mem_append_right _ (List.mem_singleton.mpr rfl), rfl⟩
    · cases hnone
  | history convs => exact h.history hord
  | read jid =>
    intro other hne
    simp only [ChatCall.apply, ChatCall.batches, List.append_nil, Chats.shown_markChatRead] at hne ⊢
    exact h other hne

/-- In a run whose batches all fit, every chat shows its newest message, in every
state. -/
theorem recency_of_orderly {es : List ChatCall} {t : Chats} (h : Exec ChatStep .empty es t)
    (hord : Orderly (es.flatMap ChatCall.batches)) : Recent t (es.flatMap ChatCall.batches) := by
  induction h with
  | nil => exact fun _ hne => absurd rfl hne
  | snoc run last ih =>
    rw [chatStep_iff.mp last]
    rw [List.flatMap_append, List.flatMap_singleton] at hord ⊢
    exact (ih hord.of_append).apply hord

theorem Orderly.snoc {bs : List Batch} {b : Batch} (h : Orderly bs)
    (hfits : b.Fits (processed bs b.jid)) : Orderly (bs ++ [b]) := by
  intro pre x post hsplit
  rcases List.eq_nil_or_concat post with rfl | ⟨post, y, rfl⟩
  · obtain ⟨rfl, hx⟩ := List.append_inj' hsplit rfl
    cases hx
    exact hfits
  · rw [List.concat_eq_append, ← List.cons_append, ← List.append_assoc] at hsplit
    exact h pre x post (List.append_inj' hsplit rfl).1

/-- A text of the second after. -/
def sampleLater : MessageEvent :=
  { sampleInbound with id := "message-2", timestamp := 2000000000,
                       message := some ⟨"again", none, none, none, none, none⟩ }

/-- Two messages in the order of their times. -/
theorem recency_of_sampleLater : Recent
    ([ChatCall.message sampleInbound, .message sampleLater].foldl ChatCall.apply .empty)
    [⟨"1@g.us", true, [⟨1000000000, "hello"⟩]⟩, ⟨"1@g.us", true, [⟨2000000000, "again"⟩]⟩] := by
  refine recency_of_orderly (chats_exec .empty [.message sampleInbound, .message sampleLater]) ?_
  have hnil : Orderly [] := fun pre b post hsplit => by simp at hsplit
  have hfirst : Orderly [⟨"1@g.us", true, [⟨1000000000, "hello"⟩]⟩] :=
    hnil.snoc (.inl ⟨_, List.mem_singleton.mpr rfl, .inl rfl, nofun⟩)
  exact hfirst.snoc (.inl ⟨_, List.mem_singleton.mpr rfl, .inl rfl, by decide⟩)

/-- A conversation of the same chat without messages. -/
def sampleEmptied : Conversation := ⟨"1@g.us", "1@g.us", some groupServer, "Group 1", none, []⟩

/-- A conversation without messages wipes what the chat shows. -/
theorem recency_lost_of_sampleEmptied :
    ¬ ∀ es t, Exec ChatStep .empty es t → Recent t (es.flatMap ChatCall.batches) := by
  intro h
  have hrun := chats_exec .empty [.message sampleInbound, .history [sampleEmptied]]
  obtain ⟨p, hshown, hnewest⟩ := h _ _ hrun "1@g.us" (by decide)
  have hwiped : p = (zeroTime, "") := Option.some.inj (hshown.symm.trans (by decide +kernel))
  have hupper := hnewest.upper ⟨1000000000, "hello"⟩ (by decide)
  rw [hwiped] at hupper
  exact absurd hupper (by decide)

end WhatsAppMcp.Bridge.Client
