import WhatsAppMcp.Bridge.Store.Runs

/-!
# What the calls of the store do

One lemma for each transaction says what it leaves behind when it commits.
Nothing later unfolds a transaction.

* `Database.Wrote` is a save before the notification: the message row and its
  classification.
* `Database.Enqueued` is the notification: one event and one sequence number.
* `saveMessage_cases` puts the two together.
* `Database.Delivers` is what the dispatcher may do: it keeps or deletes events
  and never adds or changes one, and it deletes an origin only after its
  retention.
-/

namespace WhatsAppMcp.Bridge.Store

/-- A computation that succeeds has succeeded at its first step. -/
theorem bind_ok {ε α β : Type} {x : Except ε α} {f : α → Except ε β} {b : β}
    (h : (x >>= f) = .ok b) : ∃ a, x = .ok a ∧ f a = .ok b := by
  cases x with
  | error e => cases h
  | ok a => exact ⟨a, rfl, h⟩

/-! ## The message row -/

/-- The message is stored and marked as one of the bridge's own sends. -/
def Database.Flagged (db : Database) (key : String × String) : Prop :=
  ∃ row, db.messages.lookup key = some row ∧ row.isBridgeOrigin = true

/-- No save of the message can notify: it is marked, or it is an own message
with a registered origin. -/
def Database.Suppressed (db : Database) (m : MessageRow) : Prop :=
  db.Flagged m.key ∨ (m.isFromMe = true ∧ ∃ o, db.origins.lookup m.key = some o)

/-- What a save leaves behind before the notification, with the classification
of the message. -/
structure Database.Wrote (db : Database) (m : MessageRow) (flag : Bool) (db' : Database) :
    Prop where
  stored : db'.messages.lookup m.key = some (m.stored flag)
  others : ∀ key, key ≠ m.key → db'.messages.lookup key = db.messages.lookup key
  classified : flag = true ↔ db.Suppressed m
  origins : ∀ key, (db'.origins.lookup key).map OriginRow.createdAt =
    (db.origins.lookup key).map OriginRow.createdAt
  outbox : db'.outbox = db.outbox
  sequences : db'.sequences = db.sequences

theorem key_test (m : MessageRow) (r : StoredMessage) :
    (decide (r.id = m.id) && decide (r.chatJid = m.chatJid)) = decide (r.key = m.key) := by
  simp [MessageRow.key]

theorem insertMessage_some {db db' : Database} {m : MessageRow}
    (h : db.insertMessage m = .ok (some db')) :
    db' = { db with messages := db'.messages } ∧ db.messages.lookup m.key = none ∧
      ∀ key, db'.messages.lookup key =
        if key = m.key then some (m.stored false) else db.messages.lookup key := by
  unfold Database.insertMessage at h
  split at h
  · cases h
  · next messages hinsert =>
    split at h
    · cases h
      exact ⟨rfl, Table.lookup_of_insert hinsert, fun key => Table.lookup_insert hinsert⟩
    · cases h

theorem insertMessage_none {db : Database} {m : MessageRow}
    (h : db.insertMessage m = .ok none) : ∃ row, db.messages.lookup m.key = some row := by
  unfold Database.insertMessage at h
  split at h
  · next hinsert => exact Table.insert_eq_none.mp hinsert
  · split at h <;> cases h

theorem updateMessage_ok {db db' : Database} {m : MessageRow} {count : Nat}
    (h : db.updateMessage m = .ok (db', count)) :
    db' = { db with messages := db'.messages } ∧
      ∀ key, db'.messages.lookup key =
        if key = m.key then (db.messages.lookup key).map (fun r => m.stored r.isBridgeOrigin)
        else db.messages.lookup key := by
  unfold Database.updateMessage at h
  simp only at h
  split at h
  · cases h
    refine ⟨rfl, fun key => ?_⟩
    rw [Table.lookup_update_key (key_test m)]
    split
    · next hkey =>
      refine Option.map_congr fun r hr => ?_
      obtain ⟨hid, hchat⟩ := Prod.mk.inj ((Table.lookup_key hr).trans hkey)
      simp [StoredMessage.rewrite, MessageRow.stored, hid, hchat]
    · rfl
  · cases h

theorem markMessageBridgeOrigin_spec {db db' : Database} {m : MessageRow} {count : Nat}
    (h : db.markMessageBridgeOrigin m.id m.chatJid = (db', count)) :
    db' = { db with messages := db'.messages } ∧
      ∀ key, db'.messages.lookup key =
        if key = m.key then
          (db.messages.lookup key).map StoredMessage.mark
        else db.messages.lookup key := by
  unfold Database.markMessageBridgeOrigin at h
  cases h
  refine ⟨rfl, fun key => ?_⟩
  rw [Table.lookup_update_key (key_test m)]

/-- The row of a save, and the frame around it. -/
theorem writeMessage_spec {env : Env} {m : MessageRow} {db db' : Database}
    {result : MessageWriteResult} {flag : Bool}
    (h : writeMessage env m db = .ok (db', result, flag)) :
    db' = { db with messages := db'.messages } ∧
      db'.messages.lookup m.key = some (m.stored flag) ∧
      (∀ key, key ≠ m.key → db'.messages.lookup key = db.messages.lookup key) ∧
      (flag = true ↔ db.Flagged m.key) ∧ result ≠ .skipped := by
  unfold writeMessage at h
  obtain ⟨answer, hanswer, h⟩ := bind_ok (Env.exec_bind_ok h)
  cases answer with
  | some db₁ =>
    cases h
    obtain ⟨hframe, hfree, hlookup⟩ := insertMessage_some hanswer
    refine ⟨hframe, by rw [hlookup, if_pos rfl], fun key hkey => by rw [hlookup, if_neg hkey], ?_,
      by simp⟩
    simp [Database.Flagged, hfree]
  | none =>
    obtain ⟨⟨db₁, count⟩, hupdate, h⟩ := bind_ok (Env.exec_bind_ok h)
    obtain ⟨row, hrow⟩ := insertMessage_none hanswer
    obtain ⟨hframe, hlookup⟩ := updateMessage_ok hupdate
    have hhere : db₁.messages.lookup m.key = some (m.stored row.isBridgeOrigin) := by
      rw [hlookup, if_pos rfl, hrow, Option.map_some]
    simp only at h
    split at h
    · cases h
    · have h := Env.exec_bind_ok h
      rw [hhere] at h
      cases h
      refine ⟨hframe, hhere, fun key hkey => by rw [hlookup, if_neg hkey], ?_, by simp⟩
      simp [Database.Flagged, hrow, MessageRow.stored]

/-! ## The classification -/

theorem consumeOutboundOrigin_ok {db db' : Database} {now : Int} {m : MessageRow}
    {isMatched : Bool} (h : db.consumeOutboundOrigin now m.id m.chatJid = .ok (db', isMatched)) :
    db' = { db with origins := db'.origins } ∧
      (isMatched = true ↔ ∃ o, db.origins.lookup m.key = some o) ∧
      ∀ key, (db'.origins.lookup key).map OriginRow.createdAt =
        (db.origins.lookup key).map OriginRow.createdAt := by
  unfold Database.consumeOutboundOrigin at h
  have hkey : (m.id, m.chatJid) = m.key := rfl
  rw [hkey] at h
  split at h
  · next hnone =>
    cases h
    exact ⟨rfl, by simp [hnone], fun _ => rfl⟩
  · next row hrow =>
    split at h
    · cases h
      refine ⟨rfl, by simp [hrow], fun key => ?_⟩
      rw [Table.lookup_update_key fun o => rfl]
      split
      · rw [Option.map_map]
        rfl
      · rfl
    · cases h

/-- The first two parts of a save: the message row with its classification. -/
theorem Database.Wrote.intro {env : Env} {m : MessageRow} {db db₁ db₂ : Database}
    {result : MessageWriteResult} {flag₁ flag : Bool}
    (hwrite : writeMessage env m db = .ok (db₁, result, flag₁))
    (hclassify : classifyOrigin env m flag₁ db₁ = .ok (db₂, flag)) :
    db.Wrote m flag db₂ ∧ result ≠ .skipped := by
  obtain ⟨hframe, hstored, hothers, hflag, hresult⟩ := writeMessage_spec hwrite
  refine ⟨?_, hresult⟩
  have horigins : db₁.origins = db.origins := by rw [hframe]
  have houtbox : db₁.outbox = db.outbox := by rw [hframe]
  have hsequences : db₁.sequences = db.sequences := by rw [hframe]
  unfold classifyOrigin at hclassify
  split at hclassify
  · next hown =>
    obtain ⟨hme, hunflagged⟩ : m.isFromMe = true ∧ flag₁ = false := by simpa using hown
    obtain ⟨⟨db₃, isMatched⟩, hconsume, hmark⟩ := bind_ok (Env.exec_bind_ok hclassify)
    obtain ⟨hframe₃, hmatched, hcreated⟩ := consumeOutboundOrigin_ok hconsume
    have hstored₃ : db₃.messages = db₁.messages := by rw [hframe₃]
    rw [horigins] at hmatched hcreated
    simp only at hmark
    split at hmark
    · next hyes =>
      have hmark := Env.exec_bind_ok hmark
      cases hrun : db₃.markMessageBridgeOrigin m.id m.chatJid with
      | mk db₄ count =>
        obtain ⟨hframe₄, hlookup⟩ := markMessageBridgeOrigin_spec hrun
        rw [hrun] at hmark
        simp only at hmark
        split at hmark
        · cases hmark
        · cases hmark
          refine ⟨?_, ?_, ?_, ?_, ?_, ?_⟩
          · rw [hlookup, if_pos rfl, hstored₃]
            show (db₁.messages.lookup m.key).map StoredMessage.mark = _
            rw [hstored]
            rfl
          · intro key hkey
            rw [hlookup, if_neg hkey, hstored₃, hothers key hkey]
          · exact ⟨fun _ => .inr ⟨hme, hmatched.mp hyes⟩, fun _ => rfl⟩
          · intro key
            rw [hframe₄]
            exact hcreated key
          · rw [hframe₄, hframe₃, houtbox]
          · rw [hframe₄, hframe₃, hsequences]
    · next hno =>
      cases hmark
      have hnone := fun h => hno (hmatched.mpr h)
      refine ⟨hstored₃ ▸ hstored, fun key hkey => hstored₃ ▸ hothers key hkey, ?_, hcreated,
        by rw [hframe₃, houtbox], by rw [hframe₃, hsequences]⟩
      rw [hflag]
      exact ⟨.inl, fun h => h.elim id fun h => absurd h.2 hnone⟩
  · next hother =>
    cases hclassify
    refine ⟨hstored, hothers, ?_, fun key => by rw [horigins], houtbox, hsequences⟩
    rw [hflag]
    constructor
    · exact .inl
    · rintro (h | ⟨hme, -⟩)
      · exact h
      · by_contra hunflagged
        rw [← hflag] at hunflagged
        simp [hme, hunflagged] at hother

/-! ## The notification -/

/-- The last sequence number of a chat, which is `0` before the first. -/
def Database.lastSequence (db : Database) (canonicalChatJid : String) : Nat :=
  match db.sequences.lookup canonicalChatJid with
  | some row => row.lastSequence
  | none => 0

theorem allocateNotificationSequence_ok {db db' : Database} {canonical : String} {sequence : Nat}
    (h : db.allocateNotificationSequence canonical = .ok (db', sequence)) :
    db' = { db with sequences := db'.sequences } ∧ sequence = db.lastSequence canonical + 1 ∧
      ∀ other, db'.lastSequence other = if other = canonical then sequence
        else db.lastSequence other := by
  unfold Database.allocateNotificationSequence at h
  split at h
  · next hnone =>
    split at h
    · next sequences hinsert =>
      cases h
      refine ⟨rfl, by simp [Database.lastSequence, hnone], fun other => ?_⟩
      simp only [Database.lastSequence, Table.lookup_insert hinsert]
      by_cases hother : other = canonical
      · simp [hother]
      · simp [hother]
    · cases h
  · next row hrow =>
    split at h
    · cases h
      refine ⟨rfl, by simp [Database.lastSequence, hrow], fun other => ?_⟩
      simp only [Database.lastSequence]
      rw [Table.lookup_update_key fun r => rfl]
      by_cases hother : other = canonical
      · simp [hother, hrow, SequenceRow.next]
      · simp [hother]
    · cases h

/-- What the notification of a save adds: one event, with the next sequence
number of its chat. -/
structure Database.Enqueued (db : Database) (e : OutboxEvent) (db' : Database) : Prop where
  checks : e.fresh.Checks
  apart : ∀ n ∈ db.outbox, ¬ n.toOutboxEvent.Clashes e
  outbox : db.outbox.insert e.fresh = some db'.outbox
  sequence : ∃ canonical, e.canonicalChatJid = some canonical ∧
    e.chatSequence = some (db.lastSequence canonical + 1) ∧
    ∀ other, db'.lastSequence other =
      if other = canonical then db.lastSequence canonical + 1 else db.lastSequence other
  messages : db'.messages = db.messages
  origins : db'.origins = db.origins

theorem insertNotification_ok {db db' : Database} {e : OutboxEvent}
    (h : db.insertNotification e = .ok db') :
    e.fresh.Checks ∧ (∀ n ∈ db.outbox, ¬ n.toOutboxEvent.Clashes e) ∧
      db.outbox.insert e.fresh = some db'.outbox ∧ db' = { db with outbox := db'.outbox } := by
  unfold Database.insertNotification at h
  split at h
  · next hok =>
    split at h
    · next outbox hinsert =>
      cases h
      exact ⟨hok.1, hok.2.2, hinsert, rfl⟩
    · cases h
  · split at h <;> cases h

theorem enqueueNotification_spec {env : Env} {m : MessageRow} {candidate : NotificationRequest}
    {db db' : Database} (h : enqueueNotification env m candidate db = .ok db') :
    validV2NotificationRequest m candidate = true ∧
      ∃ eventId sequence, env.newNotificationId = .ok eventId ∧
        db.Enqueued (notificationEvent m candidate eventId sequence) db' := by
  unfold enqueueNotification at h
  split at h
  · cases h
  · next hvalid =>
    refine ⟨by simpa using hvalid, ?_⟩
    obtain ⟨eventId, hid, h⟩ := bind_ok h
    obtain ⟨⟨db₁, sequence⟩, hallocate, h⟩ := bind_ok (Env.exec_bind_ok h)
    obtain ⟨hframe₁, hsequence, hlast⟩ := allocateNotificationSequence_ok hallocate
    obtain ⟨hchecks, hapart, hinsert, hframe⟩ := insertNotification_ok (Env.exec_bind_ok h)
    have houtbox : db₁.outbox = db.outbox := by rw [hframe₁]
    rw [houtbox] at hapart hinsert
    refine ⟨eventId, sequence, hid, hchecks, hapart, hinsert, ?_, ?_, ?_⟩
    · refine ⟨candidate.canonicalChatJid, rfl, ?_, fun other => ?_⟩
      · show some sequence = _
        rw [hsequence]
      · have hsame : db'.lastSequence other = db₁.lastSequence other := by
          rw [hframe]
          rfl
        rw [hsame, hlast other, hsequence]
    · rw [hframe, hframe₁]
    · rw [hframe, hframe₁]

/-- A valid request says of the message whether it is an own one. -/
theorem valid_isFromMe {m : MessageRow} {candidate : NotificationRequest}
    (h : validV2NotificationRequest m candidate = true) : candidate.isFromMe = m.isFromMe := by
  unfold validV2NotificationRequest at h
  split at h
  · cases h
  · next hfields =>
    simp only [Bool.or_eq_true, not_or, bne_iff_ne, ne_eq, not_not] at hfields
    exact hfields.1.1.2

/-! ## A save -/

/-- A save that commits: a message row, and a notification where the request
asks for one and nothing suppresses it. -/
inductive Database.Saves (env : Env) (db : Database) (m : MessageRow)
    (request : Option NotificationRequest) (db' : Database) : Prop
  | silent {flag : Bool} (wrote : db.Wrote m flag db')
  | notified {db₁ : Database} {candidate : NotificationRequest} {eventId : String} {sequence : Nat}
      (wrote : db.Wrote m false db₁) (asked : request = some candidate)
      (valid : validV2NotificationRequest m candidate = true)
      (generated : env.newNotificationId = .ok eventId)
      (enqueued : db₁.Enqueued (notificationEvent m candidate eventId sequence) db')

theorem saveMessageTx_spec {env : Env} {m : MessageRow} {request : Option NotificationRequest}
    {db db' : Database} {result : MessageWriteResult}
    (h : saveMessageTx env m request db = .ok (db', result)) :
    db.Saves env m request db' ∧ result ≠ .skipped := by
  unfold saveMessageTx at h
  obtain ⟨⟨db₁, result₁, flag₁⟩, hwrite, h⟩ := bind_ok h
  obtain ⟨⟨db₂, flag⟩, hclassify, h⟩ := bind_ok h
  obtain ⟨hwrote, hresult⟩ := Database.Wrote.intro hwrite hclassify
  cases request with
  | none =>
    cases h
    exact ⟨.silent hwrote, hresult⟩
  | some candidate =>
    simp only at h
    split at h
    · cases h
      exact ⟨.silent hwrote, hresult⟩
    · next hflag =>
      obtain ⟨known, -, h⟩ := bind_ok h
      split at h
      · cases h
        exact ⟨.silent hwrote, hresult⟩
      · obtain ⟨db₃, henqueue, h⟩ := bind_ok h
        cases h
        obtain ⟨hvalid, eventId, sequence, hid, henqueued⟩ := enqueueNotification_spec henqueue
        rw [Bool.not_eq_true] at hflag
        rw [hflag] at hwrote
        exact ⟨.notified hwrote rfl hvalid hid henqueued, hresult⟩

/-- A save stores its message, or leaves the database as it was. -/
theorem saveMessage_cases (env : Env) (db : Database) (msg : Option MessageRow)
    (request : Option NotificationRequest) :
    ((saveMessage env db msg request).1 = db ∧
      (saveMessage env.heard db msg request).2 ≠ .ok .inserted ∧
      (saveMessage env.heard db msg request).2 ≠ .ok .updated) ∨
    ∃ m, msg = some m ∧ db.Saves env m request (saveMessage env db msg request).1 ∧
      ((saveMessage env.heard db msg request).2 = .ok .inserted ∨
        (saveMessage env.heard db msg request).2 = .ok .updated) := by
  unfold saveMessage
  cases msg with
  | none => exact .inl ⟨rfl, by simp, by simp⟩
  | some m =>
    have hsame : saveMessageTx env.heard m request = saveMessageTx env m request := rfl
    simp only [hsame]
    split
    · exact .inl ⟨rfl, by simp, by simp⟩
    · rcases env.submit_cases db (saveMessageTx env m request)
        with ⟨h, hheard⟩ | ⟨db', result, answer, htx, h, -, hheard⟩
      · rw [h, hheard]
        exact .inl ⟨rfl, by simp, by simp⟩
      · rw [h, hheard]
        obtain ⟨hsaves, hresult⟩ := saveMessageTx_spec htx
        refine .inr ⟨m, rfl, ?_, ?_⟩
        · cases answer with
          | none => exact hsaves
          | some result => exact hsaves
        · cases result with
          | inserted => exact .inl rfl
          | updated => exact .inr rfl
          | skipped => exact absurd rfl hresult

/-! ## The registration of origins -/

/-- What a registration adds: an origin for every identity. -/
structure Database.Registers (db : Database) (env : Env) (messageId : String)
    (chatJids : List String) (db' : Database) : Prop where
  added : ∀ chatJid ∈ chatJids, db'.origins.lookup (messageId, chatJid) =
    some ⟨messageId, chatJid, env.clock (.registerOutboundOrigin chatJid), none⟩
  kept : ∀ key o, db.origins.lookup key = some o → db'.origins.lookup key = some o
  frame : db' = { db with origins := db'.origins }

theorem registerOutboundOrigin_ok {db db' : Database} {now : Int} {messageId chatJid : String}
    (h : db.registerOutboundOrigin now messageId chatJid = .ok db') :
    db' = { db with origins := db'.origins } ∧
      db.origins.insert ⟨messageId, chatJid, now, none⟩ = some db'.origins := by
  unfold Database.registerOutboundOrigin at h
  simp only at h
  split at h
  · split at h
    · next origins hinsert =>
      cases h
      exact ⟨rfl, hinsert⟩
    · cases h
  · cases h

theorem registerOutboundOriginsTx_spec {env : Env} {messageId : String} {chatJids : List String}
    {db db' : Database} (h : registerOutboundOriginsTx env messageId chatJids db = .ok (db', ())) :
    db.Registers env messageId chatJids db' := by
  induction chatJids generalizing db with
  | nil =>
    cases h
    exact ⟨by simp, fun _ _ h => h, rfl⟩
  | cons chatJid chatJids ih =>
    obtain ⟨db₁, hregister, h⟩ := bind_ok (Env.exec_bind_ok h)
    obtain ⟨hframe₁, hinsert⟩ := registerOutboundOrigin_ok hregister
    obtain ⟨hadded, hkept, hframe⟩ := ih h
    refine ⟨?_, ?_, ?_⟩
    · intro jid hjid
      rcases List.mem_cons.mp hjid with rfl | hjid
      · refine hkept _ _ ?_
        rw [Table.lookup_insert hinsert]
        exact if_pos rfl
      · exact hadded jid hjid
    · intro key o hold
      refine hkept key o ?_
      rw [Table.lookup_insert hinsert, if_neg, hold]
      intro hkey
      have hfree := Table.lookup_of_insert hinsert
      rw [← hkey, hold] at hfree
      cases hfree
    · rw [hframe, hframe₁]

/-- The transaction does not look at whether its answer is heard. -/
theorem registerOutboundOriginsTx_heard (env : Env) (messageId : String) (chatJids : List String) :
    registerOutboundOriginsTx env.heard messageId chatJids = registerOutboundOriginsTx env messageId chatJids := by
  induction chatJids with
  | nil => rfl
  | cons chatJid chatJids ih =>
    funext db
    simp only [registerOutboundOriginsTx, ih]
    rfl

/-- A registration adds every identity, or leaves the database as it was. -/
theorem registerOutboundOrigins_cases (env : Env) (db : Database) (messageId : String)
    (chatJids : List String) :
    ((registerOutboundOrigins env db messageId chatJids).1 = db ∧
      (registerOutboundOrigins env.heard db messageId chatJids).2 ≠ .ok ()) ∨
    db.Registers env messageId chatJids (registerOutboundOrigins env db messageId chatJids).1 := by
  unfold registerOutboundOrigins
  simp only [registerOutboundOriginsTx_heard]
  split
  · exact .inl ⟨rfl, by simp⟩
  · rcases env.submit_cases db (registerOutboundOriginsTx env messageId chatJids.eraseDups)
      with ⟨h, hheard⟩ | ⟨db', ⟨⟩, answer, htx, h, -, -⟩
    · rw [h, hheard]
      exact .inl ⟨rfl, by simp⟩
    · rw [h]
      obtain ⟨hadded, hkept, hframe⟩ := registerOutboundOriginsTx_spec htx
      refine .inr ?_
      have hregisters : db.Registers env messageId chatJids db' :=
        ⟨fun jid hjid => hadded jid (List.mem_eraseDups.mpr hjid), hkept, hframe⟩
      cases answer with
      | none => exact hregisters
      | some answer => exact hregisters

/-! ## The dispatcher and the maintenance -/

/-- The events of the outbox, in the order of their rows. -/
def Database.events (db : Database) : List OutboxEvent :=
  db.outbox.rows.map OutboxRow.toOutboxEvent

/-- What a claim, an outcome or a maintenance may do. -/
structure Database.Delivers (db : Database) (env : Env) (db' : Database) : Prop where
  events : db'.events.Sublist db.events
  sequences : db'.sequences = db.sequences
  messages : db'.messages = db.messages
  origins : ∀ key o, db.origins.lookup key = some o → db'.origins.lookup key = some o ∨
    db.Flagged key ∨ o.createdAt ≤
      env.clock .pruneUnobservedOutboundOrigins - unobservedOutboundOriginRetention

/-- An update that succeeds has checked every row that it writes. -/
theorem updateOutbox_eq {db db' : Database} {sel : OutboxRow → Bool} {f : OutboxRow → OutboxRow}
    {hf : ∀ n, (f n).toOutboxEvent = n.toOutboxEvent} (h : db.updateOutbox sel f hf = .ok db') :
    (∀ n ∈ db.outbox.rows, sel n = true → (f n).Checks) ∧
      db' = { db with
        outbox := db.outbox.update sel f fun n => congrArg OutboxEvent.eventId (hf n) } := by
  unfold Database.updateOutbox at h
  split at h
  · next hchecks =>
    cases h
    exact ⟨hchecks, rfl⟩
  · split at h <;> cases h

theorem updateOutbox_ok {db db' : Database} {sel : OutboxRow → Bool} {f : OutboxRow → OutboxRow}
    {hf : ∀ n, (f n).toOutboxEvent = n.toOutboxEvent} (h : db.updateOutbox sel f hf = .ok db') :
    db' = { db with outbox := db'.outbox } ∧ db'.events = db.events := by
  obtain ⟨-, rfl⟩ := updateOutbox_eq h
  refine ⟨rfl, ?_⟩
  unfold Database.events
  show (db.outbox.rows.map fun n => if sel n then f n else n).map OutboxRow.toOutboxEvent = _
  rw [List.map_map]
  refine List.map_congr_left fun n _ => ?_
  show (if sel n then f n else n).toOutboxEvent = n.toOutboxEvent
  split
  · exact hf n
  · rfl

theorem Database.Delivers.refl (db : Database) (env : Env) : db.Delivers env db :=
  ⟨List.Sublist.refl _, rfl, rfl, fun _ _ h => .inl h⟩

/-- An update of outbox rows keeps all events. -/
theorem Database.Delivers.of_update {db db' : Database} {env : Env} {sel : OutboxRow → Bool}
    {f : OutboxRow → OutboxRow} {hf : ∀ n, (f n).toOutboxEvent = n.toOutboxEvent}
    (h : db.updateOutbox sel f hf = .ok db') : db.Delivers env db' := by
  obtain ⟨hframe, hevents⟩ := updateOutbox_ok h
  refine ⟨hevents ▸ List.Sublist.refl _, by rw [hframe], by rw [hframe], fun key o ho => .inl ?_⟩
  rw [hframe]
  exact ho

theorem Database.Delivers.trans {db db₁ db₂ : Database} {env : Env} (h₁ : db.Delivers env db₁)
    (h₂ : db₁.Delivers env db₂) : db.Delivers env db₂ := by
  refine ⟨h₂.events.trans h₁.events, h₂.sequences.trans h₁.sequences,
    h₂.messages.trans h₁.messages, fun key o ho => ?_⟩
  rcases h₁.origins key o ho with ho | hreason
  · have hflag : db₁.Flagged key ↔ db.Flagged key := by
      unfold Database.Flagged
      rw [h₁.messages]
    rw [← hflag]
    exact h₂.origins key o ho
  · exact .inr hreason

/-- A claim that commits found nothing due, or leased one due row. -/
theorem claimNotificationTx_spec {env : Env} {allowed : List String} {maxAttempts : Int}
    {token : String} {leaseMilliseconds : Int} {db db' : Database} {result : Option Notification}
    (h : claimNotificationTx env allowed maxAttempts token leaseMilliseconds db =
      .ok (db', result)) :
    let leased := OutboxRow.lease token
      (env.clock .claimNotification + leaseMilliseconds * millisecond)
    (db' = db ∧ result = none) ∨ ∃ candidate claimed, candidate ∈ db.outbox ∧
      candidate.due (env.clock .claimNotification) allowed maxAttempts = true ∧
      db.updateOutbox (fun n => n.eventId = candidate.eventId) leased (fun _ => rfl) = .ok db' ∧
      populateClaimedNotification (leased candidate) = .ok claimed ∧ result = some claimed := by
  unfold claimNotificationTx at h
  obtain ⟨⟨db₁, row⟩, hclaim, h⟩ := bind_ok (Env.exec_bind_ok h)
  unfold Database.claimNotification at hclaim
  simp only at hclaim
  split at hclaim
  · cases hclaim
    cases h
    exact .inl ⟨rfl, rfl⟩
  · next candidate rest hfirst =>
    obtain ⟨db₂, hupdate, hclaim⟩ := bind_ok hclaim
    cases hclaim
    obtain ⟨claimed, hpopulate, h⟩ := bind_ok h
    cases h
    have hmem := Table.mem_of_first (hfirst ▸ List.mem_cons_self)
    rw [Bool.and_eq_true] at hmem
    exact .inr ⟨candidate, claimed, hmem.1, hmem.2.1, hupdate, hpopulate, rfl⟩

theorem claimNotificationTx_delivers {env : Env} {allowed : List String} {maxAttempts : Int}
    {token : String} {leaseMilliseconds : Int} {db db' : Database} {result : Option Notification}
    (h : claimNotificationTx env allowed maxAttempts token leaseMilliseconds db =
      .ok (db', result)) : db.Delivers env db' := by
  rcases claimNotificationTx_spec h with ⟨rfl, -⟩ | ⟨_, _, -, -, hupdate, -, -⟩
  · exact .refl _ env
  · exact .of_update hupdate

/-- An outcome that commits finished the rows held by its token. -/
theorem finishNotificationTx_spec {env : Env} {n : Notification} {outcome : NotificationOutcome}
    {db db' : Database} {changed : Bool}
    (h : finishNotificationTx env n outcome db = .ok (db', changed)) :
    let held := fun row : OutboxRow =>
      row.heldBy (env.clock .finishNotification) n.eventId n.leaseToken
    db.updateOutbox held (OutboxRow.finish outcome (env.clock .finishNotification))
        (fun _ => rfl) = .ok db' ∧ changed = decide (db.outbox.rows.countP held = 1) := by
  unfold finishNotificationTx at h
  obtain ⟨db₁, hupdate, h⟩ := bind_ok (Env.exec_bind_ok h)
  cases h
  exact ⟨hupdate, rfl⟩

theorem finishNotificationTx_delivers {env : Env} {n : Notification} {outcome : NotificationOutcome}
    {db db' : Database} {changed : Bool}
    (h : finishNotificationTx env n outcome db = .ok (db', changed)) : db.Delivers env db' :=
  .of_update (finishNotificationTx_spec h).1

theorem pruneNotifications_delivers (db : Database) (env : Env) (retention : Int) (limit : Nat) :
    db.Delivers env (db.pruneNotifications env retention limit) :=
  ⟨List.filter_sublist.map _, rfl, rfl, fun _ _ h => .inl h⟩

/-- A prune of origins deletes rows for the reason that its candidates have. -/
theorem delete_origins {db : Database} {sel : OriginRow → Bool} {rank : OriginRow → Int}
    {limit : Nat} {key : String × String} {o : OriginRow} (ho : db.origins.lookup key = some o) :
    (db.origins.delete fun o =>
        (db.origins.first sel (OriginRow.rank rank) limit).any (·.key = o.key)).lookup key = some o ∨
      sel o = true := by
  rw [Table.lookup_delete, ho]
  cases hany : (db.origins.first sel (OriginRow.rank rank) limit).any (·.key = o.key) with
  | false => exact .inl (Option.filter_some_pos (by simp [hany]))
  | true =>
    obtain ⟨o', ho', hkey⟩ := List.any_eq_true.mp hany
    obtain ⟨hmem, hsel⟩ := Table.mem_of_first ho'
    rw [decide_eq_true_eq] at hkey
    rw [Table.eq_of_key hmem (Table.mem_of_lookup ho) hkey] at hsel
    exact .inr hsel

theorem pruneObservedOutboundOrigins_delivers (db : Database) (env : Env) (retention : Int)
    (limit : Nat) : db.Delivers env (db.pruneObservedOutboundOrigins env retention limit) := by
  refine ⟨List.Sublist.refl _, rfl, rfl, fun key o ho => ?_⟩
  rcases delete_origins ho with hkept | hsel
  · exact .inl hkept
  · refine .inr (.inl ?_)
    simp only [Database.observedExpired, Bool.and_eq_true, Option.any_eq_true] at hsel
    obtain ⟨⟨-, row, hrow, hflag⟩, -⟩ := hsel
    rw [Table.lookup_key ho] at hrow
    exact ⟨row, hrow, hflag⟩

theorem pruneUnobservedOutboundOrigins_delivers (db : Database) (env : Env) (limit : Nat) :
    db.Delivers env
      (db.pruneUnobservedOutboundOrigins env unobservedOutboundOriginRetention limit) := by
  refine ⟨List.Sublist.refl _, rfl, rfl, fun key o ho => ?_⟩
  rcases delete_origins ho with hkept | hsel
  · exact .inl hkept
  · refine .inr (.inr ?_)
    simp only [Database.unobservedExpired, Bool.and_eq_true, decide_eq_true_eq] at hsel
    exact hsel.1.2

/-- A maintenance that commits rewrote some rows and then pruned some. -/
theorem maintainNotificationsTx_spec {env : Env} {enabled : Bool} {allowed : List String}
    {maxAttempts retentionMilliseconds : Int} {limit : Nat} {db db' : Database}
    (h : maintainNotificationsTx env enabled allowed maxAttempts retentionMilliseconds limit db =
      .ok (db', ())) :
    ∃ db₁, db.maintainNotifications env enabled maxAttempts allowed limit = .ok db₁ ∧
      db'.outbox =
        (db₁.pruneNotifications env (retentionMilliseconds * millisecond) limit).outbox ∧
      db₁.Delivers env db' := by
  unfold maintainNotificationsTx at h
  obtain ⟨db₁, hmaintain, h⟩ := bind_ok (Env.exec_bind_ok h)
  have h := Env.exec_bind_ok (Env.exec_bind_ok (Env.exec_bind_ok h))
  cases h
  exact ⟨db₁, hmaintain, rfl, ((pruneNotifications_delivers ..).trans
    (pruneObservedOutboundOrigins_delivers ..)).trans (pruneUnobservedOutboundOrigins_delivers ..)⟩

theorem maintainNotificationsTx_delivers {env : Env} {enabled : Bool} {allowed : List String}
    {maxAttempts retentionMilliseconds : Int} {limit : Nat} {db db' : Database}
    (h : maintainNotificationsTx env enabled allowed maxAttempts retentionMilliseconds limit db =
      .ok (db', ())) : db.Delivers env db' := by
  obtain ⟨db₁, hmaintain, -, hpruned⟩ := maintainNotificationsTx_spec h
  unfold Database.maintainNotifications at hmaintain
  have hfirst : db.Delivers env db₁ := .of_update hmaintain
  exact hfirst.trans hpruned

/-- A claim stays without effect, or its transaction commits. -/
theorem claimNotification_cases (env : Env) (db : Database) (allowed : List String)
    (maxAttempts lease : Int) :
    ((claimNotification env db allowed maxAttempts lease).1 = db ∧
      ∀ claimed, (claimNotification env db allowed maxAttempts lease).2 ≠ .ok (some claimed)) ∨
    ∃ token result, env.newNotificationId = .ok token ∧
      claimNotificationTx env allowed maxAttempts token (milliseconds lease) db =
        .ok ((claimNotification env db allowed maxAttempts lease).1, result) ∧
      ((claimNotification env db allowed maxAttempts lease).2 = .ok result ∨
        (claimNotification env db allowed maxAttempts lease).2 =
          .error .notificationStoreFailed) := by
  unfold claimNotification
  split
  · exact .inl ⟨rfl, by simp⟩
  · split
    · exact .inl ⟨rfl, by simp⟩
    · split
      · exact .inl ⟨rfl, by simp⟩
      · next token htoken =>
        rcases env.submit_cases db
            (claimNotificationTx env allowed maxAttempts token (milliseconds lease))
          with ⟨h, -⟩ | ⟨db', result, answer, htx, h, hanswer, -⟩
        · rw [h]
          exact .inl ⟨rfl, by simp⟩
        · rw [h]
          refine .inr ⟨token, result, htoken, ?_⟩
          rcases hanswer with rfl | rfl
          · exact ⟨htx, .inr rfl⟩
          · exact ⟨htx, .inl rfl⟩

/-- An outcome stays without effect, or its transaction commits. -/
theorem finishNotification_cases (env : Env) (db : Database) (n : Notification)
    (outcome : NotificationOutcome) :
    ((finishNotification env db n outcome).1 = db ∧
      (finishNotification env db n outcome).2 ≠ .ok true) ∨
    (outcome.state ≠ .leased ∧ 0 ≤ outcome.httpStatus ∧ outcome.httpStatus ≤ 599) ∧
      ∃ changed, finishNotificationTx env n outcome db =
          .ok ((finishNotification env db n outcome).1, changed) ∧
        ((finishNotification env db n outcome).2 = .ok changed ∨
          (finishNotification env db n outcome).2 = .error .notificationStoreFailed) := by
  unfold finishNotification
  split
  · exact .inl ⟨rfl, by simp⟩
  · next hvalid =>
    simp only [Bool.or_eq_true, decide_eq_true_eq, not_or, not_lt] at hvalid
    rcases env.submit_cases db (finishNotificationTx env n outcome)
      with ⟨h, -⟩ | ⟨db', changed, answer, htx, h, hanswer, -⟩
    · rw [h]
      exact .inl ⟨rfl, by simp⟩
    · rw [h]
      refine .inr ⟨⟨hvalid.1.1.2, hvalid.1.2, hvalid.2⟩, changed, ?_⟩
      rcases hanswer with rfl | rfl
      · exact ⟨htx, .inr rfl⟩
      · exact ⟨htx, .inl rfl⟩

/-- A maintenance stays without effect, or its transaction commits. -/
theorem maintainNotifications_cases (env : Env) (db : Database) (enabled : Bool)
    (allowed : List String) (maxAttempts retention limit : Int) :
    (maintainNotifications env db enabled allowed maxAttempts retention limit).1 = db ∨
      maintainNotificationsTx env enabled allowed maxAttempts (milliseconds retention) limit.toNat
        db = .ok ((maintainNotifications env db enabled allowed maxAttempts retention limit).1,
          ()) := by
  unfold maintainNotifications
  split
  · exact .inl rfl
  · rcases env.submit_cases db (maintainNotificationsTx env enabled allowed maxAttempts
        (milliseconds retention) limit.toNat)
      with ⟨h, -⟩ | ⟨db', ⟨⟩, answer, htx, h, hanswer, -⟩
    · rw [h]
      exact .inl rfl
    · rw [h]
      rcases hanswer with rfl | rfl
      · exact .inr htx
      · exact .inr htx

/-! ## Any call -/

/-- What a call does to the database, with the own message that it saves. -/
inductive Database.Moves (db : Database) (c : Call) (db' : Database) : Prop
  | stays (same : db' = db) (quiet : c.echo db = none)
  | chat (chats : List String) (next : db' = { db with chats := chats }) (quiet : c.echo db = none)
  | saves {m : MessageRow} {request : Option NotificationRequest}
      (call : c.op = .saveMessage (some m) request) (saved : db.Saves c.env m request db')
      (echo : c.echo db =
        if m.isFromMe then some (m.key, c.env.clock .consumeOutboundOrigin) else none)
  | registers {messageId : String} {chatJids : List String}
      (call : c.op = .registerOutboundOrigins messageId chatJids)
      (registered : db.Registers c.env messageId chatJids db') (quiet : c.echo db = none)
  | delivers (delivered : db.Delivers c.env db') (quiet : c.echo db = none)

/-- The cases of a call. -/
theorem Call.moves (c : Call) (db : Database) : db.Moves c (c.op.run c.env db) := by
  obtain ⟨op, env, done⟩ := c
  cases op with
  | upsertChat jid => exact .chat _ rfl rfl
  | saveMessage msg request =>
    rcases saveMessage_cases env db msg request with ⟨hsame, hneither⟩ | ⟨m, rfl, hsaves, hsaved⟩
    · refine .stays hsame ?_
      cases msg with
      | none => rfl
      | some m => simp [Call.echo, hneither]
    · exact .saves rfl hsaves (by simp [Call.echo, hsaved])
  | registerOutboundOrigins messageId chatJids =>
    rcases registerOutboundOrigins_cases env db messageId chatJids with ⟨hsame, -⟩ | hregisters
    · exact .stays hsame rfl
    · exact .registers rfl hregisters rfl
  | claimNotification allowed maxAttempts lease =>
    rcases claimNotification_cases env db allowed maxAttempts lease
      with ⟨hsame, -⟩ | ⟨token, result, -, htx, -⟩
    · exact .stays hsame rfl
    · exact .delivers (claimNotificationTx_delivers htx) rfl
  | finishNotification n outcome =>
    rcases finishNotification_cases env db n outcome with ⟨hsame, -⟩ | ⟨-, changed, htx, -⟩
    · exact .stays hsame rfl
    · exact .delivers (finishNotificationTx_delivers htx) rfl
  | maintainNotifications enabled allowed maxAttempts retention limit =>
    rcases maintainNotifications_cases env db enabled allowed maxAttempts retention limit
      with hsame | htx
    · exact .stays hsame rfl
    · exact .delivers (maintainNotificationsTx_delivers htx) rfl

/-! ## The records of the past -/

/-- A call that brings no new event leaves the history alone. -/
theorem added_of_sublist {db db' : Database} (h : db'.events.Sublist db.events) :
    db.added db' = [] := by
  unfold Database.added
  rw [List.map_eq_nil_iff, List.filter_eq_nil_iff]
  intro n hn
  have hevent : n.toOutboxEvent ∈ db.events := h.subset (List.mem_map_of_mem hn)
  obtain ⟨n₀, hn₀, heq⟩ := List.mem_map.mp hevent
  have hlookup := Table.lookup_of_mem (t := db.outbox) hn₀
  rw [heq] at hlookup
  simp [hlookup]

/-- The one event of a notification is what the history gains. -/
theorem Database.Enqueued.added {db db' : Database} {e : OutboxEvent} (h : db.Enqueued e db') :
    db.added db' = [e] := by
  have hrows := Table.rows_insert h.outbox
  have hfree := Table.lookup_of_insert h.outbox
  unfold Database.added
  rw [hrows, List.filter_append, List.map_append]
  have hold : db.outbox.rows.filter (fun n => (db.outbox.lookup n.eventId).isNone) = [] := by
    rw [List.filter_eq_nil_iff]
    intro n hn
    simp [Table.lookup_of_mem (t := db.outbox) hn]
  have hnew : [e.fresh].filter (fun n => (db.outbox.lookup n.eventId).isNone) = [e.fresh] := by
    simp only [List.filter_singleton]
    rw [hfree]
    rfl
  rw [hold, hnew]
  rfl

end WhatsAppMcp.Bridge.Store
