import WhatsAppMcp.Lib.Numbering
import WhatsAppMcp.Bridge.Store.Effects

/-!
# The law of the notifications

Two laws of the history of the outbox, over every run of the store.

* The sequence law holds without a condition.  The events of a canonical chat
  carry `1`, `2`, … up to its `last_sequence`, in the order of their
  transactions, and no event id is given twice.
* A message has at most one notification as long as the outbox row of a notified
  message is there when the message arrives again.  The row is all that a save
  looks at, and maintenance deletes it after its retention.  `Call.Redelivers` is
  the call that comes too late.

`System.Consistent` is the invariant of both.
-/

namespace WhatsAppMcp.Bridge.Store

open Trace Numbering

/-- The sequence numbers of the events of a chat, and the ids of all events. -/
structure System.SequenceLaw (s : System) : Prop where
  numbered : ∀ canonical,
    (s.history.filter fun e => e.canonicalChatJid = some canonical).map OutboxEvent.chatSequence =
      (List.range' 1 (s.db.lastSequence canonical)).map some
  distinct : (s.history.map OutboxEvent.eventId).Nodup

/-- Every message has at most one notification. -/
def System.UniqueLaw (s : System) : Prop :=
  (s.history.map OutboxEvent.message).Nodup

/-- A live message, for which nothing suppresses a notification, arrives after
the outbox row of its notification was pruned. -/
def Call.Redelivers (c : Call) (s : System) : Prop :=
  ∃ m candidate, c.op = .saveMessage (some m) (some candidate) ∧ m.key ∈ s.pruned ∧
    validV2NotificationRequest m candidate = true ∧ ¬ s.db.Suppressed m

/-! ## What a call does to the outbox -/

/-- A call keeps the sequences and brings no event, or brings one event with the
next number of its chat. -/
inductive Database.OutboxMoves (db : Database) (c : Call) (db' : Database) : Prop
  | kept (events : db'.events.Sublist db.events)
      (sequences : ∀ canonical, db'.lastSequence canonical = db.lastSequence canonical)
  | enqueued {db₁ : Database} {m : MessageRow} {candidate : NotificationRequest} {eventId : String}
      {sequence : Nat} (call : c.op = .saveMessage (some m) (some candidate))
      (valid : validV2NotificationRequest m candidate = true) (open_ : ¬ db.Suppressed m)
      (generated : c.env.newNotificationId = .ok eventId)
      (outbox : db₁.outbox = db.outbox) (sequences : db₁.sequences = db.sequences)
      (added : db₁.Enqueued (notificationEvent m candidate eventId sequence) db')

theorem lastSequence_congr {db db' : Database} (h : db'.sequences = db.sequences)
    (canonical : String) : db'.lastSequence canonical = db.lastSequence canonical := by
  unfold Database.lastSequence
  rw [h]

theorem Database.Moves.outboxMoves {db db' : Database} {c : Call} (h : db.Moves c db') :
    db.OutboxMoves c db' := by
  cases h with
  | stays same => exact .kept (same ▸ List.Sublist.refl _) (fun _ => by rw [same])
  | chat chats next =>
    rw [next]
    exact .kept (List.Sublist.refl _) (lastSequence_congr rfl)
  | registers call registered =>
    rw [registered.frame]
    exact .kept (List.Sublist.refl _) (lastSequence_congr rfl)
  | delivers delivered =>
    exact .kept delivered.events (lastSequence_congr delivered.sequences)
  | @saves m request call saved =>
    cases saved with
    | silent wrote =>
      refine .kept ?_ (lastSequence_congr wrote.sequences)
      unfold Database.events
      rw [wrote.outbox]
    | notified wrote asked valid generated enqueued =>
      subst asked
      have hopen : ¬ db.Suppressed m := by simp [← wrote.classified]
      exact .enqueued call valid hopen generated wrote.outbox wrote.sequences enqueued

/-- An event stays in the outbox, or its message is among the removed ones. -/
theorem kept_or_removed {db db' : Database} (h : db'.events.Sublist db.events) {e : OutboxEvent}
    (he : e ∈ db.events) : e ∈ db'.events ∨ e.message ∈ db.removed db' := by
  obtain ⟨n, hn, rfl⟩ := List.mem_map.mp he
  cases hlookup : db'.outbox.lookup n.eventId with
  | none =>
    refine .inr (List.mem_map.mpr ⟨n, List.mem_filter.mpr ⟨hn, ?_⟩, rfl⟩)
    rw [hlookup]
    rfl
  | some n' =>
    have hmem' : n'.toOutboxEvent ∈ db'.events :=
      List.mem_map_of_mem (Table.mem_of_lookup hlookup)
    obtain ⟨n₀, hn₀, heq⟩ := List.mem_map.mp (h.subset hmem')
    have hkey : n'.eventId = n.eventId := Table.lookup_key (t := db'.outbox) hlookup
    have hid : n₀.eventId = n.eventId := (congrArg OutboxEvent.eventId heq).trans hkey
    have hsame : n₀ = n := Table.eq_of_key (t := db.outbox) hn₀ hn hid
    rw [hsame] at heq
    exact .inl (heq ▸ hmem')

theorem Database.Enqueued.events {db db' : Database} {e : OutboxEvent} (h : db.Enqueued e db') :
    db'.events = db.events ++ [e] := by
  unfold Database.events
  rw [Table.rows_insert h.outbox, List.map_append]
  rfl

/-! ## The invariant -/

/-- The sequence law, with what is known of the outbox. -/
structure System.Consistent (s : System) : Prop where
  numbered : Numbered OutboxEvent.canonicalChatJid OutboxEvent.chatSequence s.db.lastSequence
    s.history
  distinct : (s.history.map OutboxEvent.eventId).Nodup
  typed : ∀ e ∈ s.history, e.eventType = messageReceived
  retained : ∀ e ∈ s.history, e ∈ s.db.events ∨ e.message ∈ s.pruned

theorem consistent_initial (clock : Int) : (System.initial clock).Consistent where
  numbered := Numbered.nil fun _ => rfl
  distinct := List.nodup_nil
  typed := by simp [System.initial]
  retained := by simp [System.initial]

/-- The step lemma.  A call keeps the invariant, and it keeps the messages
apart unless it redelivers. -/
theorem consistent_step {s s' : System} {c : Call} (h : s.Consistent) (hstep : s.Step c s') :
    s'.Consistent ∧ (¬ c.Redelivers s → s.UniqueLaw → s'.UniqueLaw) := by
  have hmoves : s.db.OutboxMoves c s'.db := (hstep.next ▸ c.moves s.db : s.db.Moves c s'.db).outboxMoves
  have hhistory : s'.history = s.history ++ s.db.added s'.db := by rw [hstep.next]; rfl
  have hpruned : s'.pruned = s.pruned ++ s.db.removed s'.db := by rw [hstep.next]; rfl
  cases hmoves with
  | kept events sequences =>
    rw [added_of_sublist events, List.append_nil] at hhistory
    refine ⟨⟨?_, ?_, ?_, ?_⟩, fun _ hunique => ?_⟩
    · rw [hhistory]
      exact h.numbered.congr sequences
    · rw [hhistory]
      exact h.distinct
    · rw [hhistory]
      exact h.typed
    · intro e he
      rw [hhistory] at he
      rw [hpruned, List.mem_append]
      rcases h.retained e he with hrow | hgone
      · exact (kept_or_removed events hrow).imp id .inr
      · exact .inr (.inl hgone)
    · unfold System.UniqueLaw
      rwa [hhistory]
  | @enqueued db₁ m candidate eventId sequence call valid open_ generated outbox sequences added =>
    have hevents₁ : db₁.events = s.db.events := by
      unfold Database.events
      rw [outbox]
    have hadded : s.db.added s'.db = [notificationEvent m candidate eventId sequence] := by
      rw [← added.added]
      unfold Database.added
      rw [outbox]
    rw [hadded] at hhistory
    generalize hnew : notificationEvent m candidate eventId sequence = e at *
    have htype : e.eventType = messageReceived := by rw [← hnew]; rfl
    have hmessage : e.message = m.key := by rw [← hnew]; rfl
    have hid : e.eventId = eventId := by rw [← hnew]; rfl
    refine ⟨⟨?_, ?_, ?_, ?_⟩, fun hcareful hunique => ?_⟩
    · obtain ⟨canonical, hcanonical, hsequence, hlast⟩ := added.sequence
      simp only [lastSequence_congr sequences] at hsequence hlast
      rw [hhistory]
      exact h.numbered.append hcanonical hsequence hlast
    · rw [hhistory, List.map_append, List.map_singleton, ← List.concat_eq_append]
      refine List.Nodup.concat (fun hmem => ?_) h.distinct
      obtain ⟨e', he', heq⟩ := List.mem_map.mp hmem
      exact hstep.fresh _ _ _ call generated e' he' (heq.trans hid)
    · intro e' he'
      rw [hhistory] at he'
      rcases List.mem_append.mp he' with he' | he'
      · exact h.typed e' he'
      · rw [List.mem_singleton.mp he', htype]
    · intro e' he'
      rw [hhistory] at he'
      rw [added.events, hevents₁, hpruned, List.mem_append, List.mem_append]
      rcases List.mem_append.mp he' with he' | he'
      · exact (h.retained e' he').imp .inl .inl
      · exact .inl (.inr he')
    · unfold System.UniqueLaw
      rw [hhistory, List.map_append, List.map_singleton, ← List.concat_eq_append]
      refine List.Nodup.concat (fun hmem => ?_) hunique
      obtain ⟨e', he', heq⟩ := List.mem_map.mp hmem
      rcases h.retained e' he' with hrow | hgone
      · -- The row of the earlier notification is there, and the table refuses.
        rw [← hevents₁] at hrow
        obtain ⟨n, hn, hevent⟩ := List.mem_map.mp hrow
        refine added.apart n hn (.inl ?_)
        rw [hevent, h.typed e' he', htype]
        exact ⟨rfl, heq⟩
      · rw [heq, hmessage] at hgone
        exact hcareful ⟨m, candidate, call, hgone, valid, open_⟩

/-! ## Runs -/

/-- A step that is no late redelivery. -/
def System.TimelyStep (s : System) (c : Call) (s' : System) : Prop :=
  s.Step c s' ∧ ¬ c.Redelivers s

theorem consistent_run {clock : Int} {calls : List Call} {s : System}
    (run : Exec System.Step (System.initial clock) calls s) : s.Consistent :=
  run.invariant (P := System.Consistent) (consistent_initial clock) fun _ _ _ h hstep =>
    (consistent_step h hstep).1

/-- Every run keeps the sequence law, and a run without a late redelivery gives
every message at most one notification. -/
theorem notification_laws {clock : Int} {calls : List Call} {s : System}
    (run : Exec System.Step (System.initial clock) calls s) :
    s.SequenceLaw ∧ (Exec System.TimelyStep (System.initial clock) calls s → s.UniqueLaw) := by
  have hconsistent := consistent_run run
  refine ⟨⟨hconsistent.numbered, hconsistent.distinct⟩, fun timely => ?_⟩
  have hboth : s.Consistent ∧ s.UniqueLaw := by
    apply timely.invariant (P := fun t => t.Consistent ∧ t.UniqueLaw)
      ⟨consistent_initial clock, List.nodup_nil⟩
    intro t c t' ht hstep
    obtain ⟨hconsistent', hunique⟩ := consistent_step ht.1 hstep.1
    exact ⟨hconsistent', hunique hstep.2 ht.2⟩
  exact hboth.2

/-! ## Sample runs -/

/-- A live message of the private chat. -/
def sampleLive (now : Int) (byte : UInt8) : Call :=
  sampleCall (.saveMessage (some { sampleMessage with isFromMe := false })
    (some { sampleRequest with isFromMe := false })) now byte

/-- The message arrives twice while its outbox row is there. -/
def sampleDuplicate : List Call :=
  [sampleCall (.upsertChat "15@lid") 10 0, sampleLive 20 1, sampleLive 30 2]

theorem notification_laws_of_sampleDuplicate :
    (sampleDuplicate.foldl System.after (System.initial 0)).SequenceLaw ∧
      (sampleDuplicate.foldl System.after (System.initial 0)).UniqueLaw := by
  have hunpruned : ∀ (s : System) (c : Call), s.pruned = [] → ¬ c.Redelivers s := by
    rintro s c hnone ⟨m, candidate, -, hmem, -⟩
    rw [hnone] at hmem
    cases hmem
  have hchat : sampleChat.Step (sampleLive 20 1) (sampleChat.after (sampleLive 20 1)) :=
    sampleStep _ _ _ _ (by decide) (by decide)
  have hagain : (sampleChat.after (sampleLive 20 1)).Step (sampleLive 30 2)
      ((sampleChat.after (sampleLive 20 1)).after (sampleLive 30 2)) :=
    sampleStep _ _ _ _ (by decide) (by decide)
  have hfirst : (System.initial 0).Step (sampleCall (.upsertChat "15@lid") 10 0) sampleChat :=
    sampleStep _ _ _ _ (by decide) (by decide)
  obtain ⟨hlaw, hunique⟩ := notification_laws (((Exec.single hfirst).snoc hchat).snoc hagain)
  refine ⟨hlaw, hunique ?_⟩
  have htimely : System.TimelyStep (System.initial 0) (sampleCall (.upsertChat "15@lid") 10 0)
      sampleChat := ⟨hfirst, hunpruned _ _ rfl⟩
  exact ((Exec.single htimely).snoc ⟨hchat, hunpruned _ _ rfl⟩).snoc
    ⟨hagain, hunpruned _ _ (by decide)⟩

/-- The notification of the message is accepted and pruned, and then the message
arrives again. -/
def sampleRedelivery : List Call :=
  let n : Notification :=
    { eventId := hexEncode (List.replicate 16 1), schemaVersion := 2, eventType := messageReceived
      chatJid := "15@lid", canonicalChatJid := "15@lid", messageId := "M1", eventTimestamp := 1000
      receivedAt := 2000, expiresAt := 2000 + hour, chatSequence := 1, senderJid := "15@lid"
      senderAltJid := "", chatKind := "operator_private", isFromMe := false, attempts := 1
      leaseToken := hexEncode (List.replicate 16 2) }
  [sampleCall (.upsertChat "15@lid") 10 0, sampleLive 20 1,
    sampleCall (.claimNotification ["15@lid"] 10 (30 * 1000000000)) 30000 2,
    sampleCall (.finishNotification n ⟨.accepted, "", 202, 0⟩) 40000 0,
    sampleCall (.maintainNotifications true ["15@lid"] 10 (7 * day) 100) (8 * day) 0,
    sampleLive (9 * day) 3]

/-- The two events of the message. -/
example : (sampleRedelivery.foldl System.after (System.initial 0)).history.map
    OutboxEvent.chatSequence = [some 1, some 2] := by decide

/-- A message whose outbox row was pruned is notified again. -/
theorem redelivery_notifies_again :
    ¬ ∀ clock calls s, Exec System.Step (System.initial clock) calls s →
      s.SequenceLaw ∧ s.UniqueLaw := by
  intro hall
  have hrun : Exec System.Step (System.initial 0) sampleRedelivery
      (sampleRedelivery.foldl System.after (System.initial 0)) :=
    (((((Exec.nil.snoc (sampleStep _ _ _ _ (by decide) (by decide))).snoc
      (sampleStep _ _ _ _ (by decide) (by decide))).snoc
      (sampleStep _ _ _ _ (by decide) (by decide))).snoc
      (sampleStep _ _ _ _ (by decide) (by decide))).snoc
      (sampleStep _ _ _ _ (by decide) (by decide))).snoc
      (sampleStep _ _ _ _ (by decide) (by decide))
  have hunique := (hall 0 _ _ hrun).2
  unfold System.UniqueLaw at hunique
  revert hunique
  decide

end WhatsAppMcp.Bridge.Store
