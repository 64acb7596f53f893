import WhatsAppMcp.Bridge.Store.Effects

/-!
# The bridge's own sends never notify

A send registers an origin for its message before WhatsApp is called.  Until
the first echo the origin row is what tells the echo from a manual message.  The
echo consumes the origin and marks the message row in one transaction, and from
then on the mark is what every duplicate meets: the origin may be pruned.

`System.Guarded` is the state of one registered identity: marked, or waiting
for its echo, or past the retention without an echo.  `guarded_step` is the step
lemma, and `own_sends_never_notify` is the run.
-/

namespace WhatsAppMcp.Bridge.Store

open Trace

variable {key : String × String} {created : Int}

/-! ## The mark stays -/

theorem Database.Wrote.flagged {db db' : Database} {m : MessageRow} {flag : Bool}
    (h : db.Wrote m flag db') (hkey : db.Flagged key) : db'.Flagged key := by
  by_cases hhere : key = m.key
  · rw [hhere] at hkey ⊢
    exact ⟨_, h.stored, h.classified.mpr (.inl hkey)⟩
  · obtain ⟨row, hrow, hflag⟩ := hkey
    exact ⟨row, (h.others key hhere).trans hrow, hflag⟩

/-- A save of a suppressed message marks it and adds no event. -/
theorem Database.Saves.suppressed {env : Env} {db db' : Database} {m : MessageRow}
    {request : Option NotificationRequest} (h : db.Saves env m request db')
    (hsuppressed : db.Suppressed m) : db'.Flagged m.key ∧ db.added db' = [] := by
  cases h with
  | silent wrote =>
    have hnone : db.added db' = [] := by
      apply added_of_sublist
      unfold Database.events
      rw [wrote.outbox]
    exact ⟨⟨_, wrote.stored, wrote.classified.mpr hsuppressed⟩, hnone⟩
  | notified wrote => exact absurd (wrote.classified.mpr hsuppressed) (by simp)

theorem Database.Moves.flagged {db db' : Database} {c : Call} (h : db.Moves c db')
    (hkey : db.Flagged key) : db'.Flagged key := by
  cases h with
  | stays same => rwa [same]
  | chat chats next =>
    rw [next]
    exact hkey
  | saves call saved =>
    cases saved with
    | silent wrote => exact wrote.flagged hkey
    | notified wrote asked valid generated enqueued =>
      have hflag := wrote.flagged hkey
      unfold Database.Flagged at hflag ⊢
      rwa [enqueued.messages]
  | registers call registered =>
    rw [registered.frame]
    exact hkey
  | delivers delivered =>
    unfold Database.Flagged at hkey ⊢
    rwa [delivered.messages]

/-- No run clears the mark of a message. -/
theorem flagged_run {s s' : System} {calls : List Call} (run : Exec System.Step s calls s')
    (hkey : s.db.Flagged key) : s'.db.Flagged key := by
  apply run.invariant (P := fun t => t.db.Flagged key) hkey
  intro t c t' hflag hstep
  rw [hstep.next]
  exact (c.moves t.db).flagged hflag

/-! ## The origin waits -/

/-- The origin of the identity is there, with its time of registration. -/
def Database.Awaits (db : Database) (key : String × String) (created : Int) : Prop :=
  (db.origins.lookup key).map OriginRow.createdAt = some created

/-- A call keeps an origin, unless its message is marked or its retention is
over. -/
theorem Database.Moves.awaits {db db' : Database} {c : Call} (h : db.Moves c db')
    (hkey : db.Awaits key created) : db'.Awaits key created ∨ db.Flagged key ∨
      created ≤ c.env.clock .pruneUnobservedOutboundOrigins - unobservedOutboundOriginRetention := by
  unfold Database.Awaits at hkey ⊢
  cases h with
  | stays same => exact .inl (same ▸ hkey)
  | chat chats next =>
    rw [next]
    exact .inl hkey
  | saves call saved =>
    refine .inl ?_
    cases saved with
    | silent wrote => rwa [wrote.origins]
    | notified wrote asked valid generated enqueued => rwa [enqueued.origins, wrote.origins]
  | registers call registered =>
    obtain ⟨o, ho, rfl⟩ := Option.map_eq_some_iff.mp hkey
    exact .inl (by rw [registered.kept key o ho, Option.map_some])
  | delivers delivered =>
    obtain ⟨o, ho, rfl⟩ := Option.map_eq_some_iff.mp hkey
    rcases delivered.origins key o ho with hkept | hreason
    · exact .inl (by rw [hkept, Option.map_some])
    · exact .inr hreason

/-! ## One registered identity -/

/-- No own message of the identity is among the saved ones. -/
def Quiet (key : String × String) (echoes : List ((String × String) × Int)) : Prop :=
  ∀ echo ∈ echoes, echo.1 ≠ key

/-- The first echo of the identity, where there is one, is before the deadline. -/
def InTime (key : String × String) (deadline : Int) (echoes : List ((String × String) × Int)) :
    Prop :=
  ∀ echo ∈ echoes.find? (fun e => e.1 = key), echo.2 < deadline

instance (key : String × String) (deadline : Int) (echoes : List ((String × String) × Int)) :
    Decidable (InTime key deadline echoes) :=
  inferInstanceAs (Decidable (∀ echo ∈ echoes.find? _, _))

/-- The state of a registered identity, after these echoes. -/
inductive System.Guarded (key : String × String) (created : Int)
    (echoes : List ((String × String) × Int)) (s : System) : Prop
  | marked (flagged : s.db.Flagged key)
  | waiting (quiet : Quiet key echoes) (awaits : s.db.Awaits key created)
  | expired (quiet : Quiet key echoes)
      (late : created + unobservedOutboundOriginRetention ≤ s.clock)

variable {echoes more : List ((String × String) × Int)}

theorem InTime.of_append {deadline : Int} (h : InTime key deadline (echoes ++ more)) :
    InTime key deadline echoes := by
  intro echo hecho
  refine h echo ?_
  rw [List.find?_append, Option.mem_def.mp hecho]
  rfl

theorem Quiet.append (h : Quiet key echoes) (hmore : Quiet key more) :
    Quiet key (echoes ++ more) := by
  intro echo hecho
  rcases List.mem_append.mp hecho with hecho | hecho
  · exact h echo hecho
  · exact hmore echo hecho

/-- A call without an echo of the identity keeps its state. -/
theorem System.Guarded.quiet_step {s s' : System} {c : Call} (h : s.Guarded key created echoes)
    (hstep : s.Step c s') (hquiet : Quiet key more) : s'.Guarded key created (echoes ++ more) := by
  have hmoves : s.db.Moves c s'.db := hstep.next ▸ c.moves s.db
  have hclock : s'.clock = c.done := by rw [hstep.next]; rfl
  cases h with
  | marked flagged => exact .marked (hmoves.flagged flagged)
  | waiting quiet awaits =>
    rcases hmoves.awaits awaits with hkept | hflag | hlate
    · exact .waiting (quiet.append hquiet) hkept
    · exact .marked (hmoves.flagged hflag)
    · have hupper := hstep.clock_upper .pruneUnobservedOutboundOrigins
      exact .expired (quiet.append hquiet) (by omega)
  | expired quiet late =>
    have hdone := hstep.clock_done
    exact .expired (quiet.append hquiet) (by omega)

/-- The step lemma: a call keeps the state of the identity, and notifies of no
own message of it. -/
theorem guarded_step {s s' : System} {c : Call} (h : s.Guarded key created echoes)
    (hstep : s.Step c s')
    (htime : InTime key (created + unobservedOutboundOriginRetention)
      (echoes ++ (c.echo s.db).toList)) :
    s'.Guarded key created (echoes ++ (c.echo s.db).toList) ∧
      ∀ e ∈ s.db.added s'.db, e.message = key → e.isFromMe ≠ some true := by
  have hmoves : s.db.Moves c s'.db := hstep.next ▸ c.moves s.db
  have hnone : s'.db.events.Sublist s.db.events → ∀ e ∈ s.db.added s'.db, e.message = key →
      e.isFromMe ≠ some true := by
    intro hsub e he
    rw [added_of_sublist hsub] at he
    cases he
  cases hmoves with
  | stays same quiet =>
    rw [quiet]
    exact ⟨h.quiet_step hstep (by simp [Quiet]), hnone (same ▸ List.Sublist.refl _)⟩
  | chat chats next quiet =>
    rw [quiet]
    refine ⟨h.quiet_step hstep (by simp [Quiet]), hnone ?_⟩
    rw [next]
    exact List.Sublist.refl _
  | registers call registered quiet =>
    rw [quiet]
    refine ⟨h.quiet_step hstep (by simp [Quiet]), hnone ?_⟩
    rw [registered.frame]
    exact List.Sublist.refl _
  | delivers delivered quiet =>
    rw [quiet]
    exact ⟨h.quiet_step hstep (by simp [Quiet]), hnone delivered.events⟩
  | @saves m request call saved echo =>
    by_cases hecho : m.isFromMe = true ∧ m.key = key
    · -- The echo of the identity: the mark or the origin suppresses it.
      obtain ⟨hme, rfl⟩ := hecho
      rw [echo, if_pos hme] at htime ⊢
      have hsuppressed : s.db.Suppressed m := by
        cases h with
        | marked flagged => exact .inl flagged
        | waiting quiet awaits =>
          obtain ⟨o, ho, -⟩ := Option.map_eq_some_iff.mp awaits
          exact .inr ⟨hme, o, ho⟩
        | expired quiet late =>
          have hfirst : echoes.find? (fun e => e.1 = m.key) = none :=
            List.find?_eq_none.mpr fun e he => by simpa using quiet e he
          have hbefore := htime (m.key, c.env.clock .consumeOutboundOrigin) (by
            rw [List.find?_append, hfirst]
            simp)
          have hlower := hstep.clock_lower .consumeOutboundOrigin
          simp only at hbefore
          omega
      obtain ⟨hflag, hadded⟩ := saved.suppressed hsuppressed
      exact ⟨.marked hflag, by simp [hadded]⟩
    · refine ⟨h.quiet_step hstep ?_, ?_⟩
      · rw [echo]
        intro e he
        split at he
        · next hme =>
          simp only [Option.toList_some, List.mem_singleton] at he
          rw [he]
          exact fun hkey => hecho ⟨hme, hkey⟩
        · cases he
      · cases saved with
        | silent wrote =>
          apply hnone
          unfold Database.events
          rw [wrote.outbox]
        | @notified db₁ candidate eventId sequence wrote asked valid generated enqueued =>
          have hadded : s.db.added s'.db = db₁.added s'.db := by
            unfold Database.added
            rw [wrote.outbox]
          rw [hadded, enqueued.added]
          intro e he hkey hme
          rw [List.mem_singleton.mp he] at hkey hme
          refine hecho ⟨?_, hkey⟩
          rw [← valid_isFromMe valid]
          exact Option.some.inj hme

/-! ## A run after the registration -/

/-- A step in which `RegisterOutboundOrigins` commits, whether or not the caller
hears of it. -/
structure System.Registers (s : System) (c : Call) (s' : System) (messageId : String)
    (chatJids : List String) : Prop where
  step : s.Step c s'
  call : c.op = .registerOutboundOrigins messageId chatJids
  committed : (registerOutboundOrigins c.env.heard s.db messageId chatJids).2 = .ok ()

/-- After its registration an identity waits for its echo. -/
theorem System.Registers.guarded {s s' : System} {c : Call} {messageId : String}
    {chatJids : List String} (h : s.Registers c s' messageId chatJids) {chatJid : String}
    (hjid : chatJid ∈ chatJids) :
    s'.Guarded (messageId, chatJid) (c.env.clock (.registerOutboundOrigin chatJid)) [] := by
  have hdb : s'.db = (registerOutboundOrigins c.env s.db messageId chatJids).1 := by
    rw [h.step.next]
    show c.op.run c.env s.db = _
    rw [h.call]
    rfl
  rcases registerOutboundOrigins_cases c.env s.db messageId chatJids with ⟨-, hfailed⟩ | hregisters
  · exact absurd h.committed hfailed
  · refine .waiting (by simp [Quiet]) ?_
    unfold Database.Awaits
    rw [hdb, hregisters.added chatJid hjid]
    rfl

/-- What a run adds to the records, and what it keeps of one identity. -/
theorem guarded_run {s s' : System} {calls : List Call} (run : Exec System.Step s calls s')
    (h : s.Guarded key created []) :
    ∃ echoes events, s'.echoes = s.echoes ++ echoes ∧ s'.history = s.history ++ events ∧
      (InTime key (created + unobservedOutboundOriginRetention) echoes →
        s'.Guarded key created echoes ∧ ∀ e ∈ events, e.message = key → e.isFromMe ≠ some true) := by
  induction run with
  | nil => exact ⟨[], [], by simp, by simp, fun _ => ⟨h, by simp⟩⟩
  | @snoc calls t u c run last ih =>
    obtain ⟨echoes, events, hechoes, hevents, hkeep⟩ := ih
    have hnext : u = t.after c := last.next
    refine ⟨echoes ++ (c.echo t.db).toList, events ++ t.db.added u.db, ?_, ?_, fun htime => ?_⟩
    · rw [hnext, ← List.append_assoc, ← hechoes]
      rfl
    · rw [hnext, ← List.append_assoc, ← hevents]
      rfl
    · obtain ⟨hguarded, hold⟩ := hkeep htime.of_append
      obtain ⟨hguarded', hnew⟩ := guarded_step hguarded last htime
      refine ⟨hguarded', fun e he => ?_⟩
      rcases List.mem_append.mp he with he | he
      · exact hold e he
      · exact hnew e he

/-- After `RegisterOutboundOrigins` committed for a message under some chats,
no run creates a notification for an own message of this id under one of them,
where the first echo that is saved under this chat is saved before the
retention is over.  And no run clears the mark of any message. -/
theorem own_sends_never_notify {s₀ s₁ s : System} {c : Call} {calls : List Call}
    {messageId chatJid : String} {chatJids : List String}
    (registered : s₀.Registers c s₁ messageId chatJids) (hjid : chatJid ∈ chatJids)
    (run : Exec System.Step s₁ calls s)
    (intime : InTime (messageId, chatJid)
      (c.env.clock (.registerOutboundOrigin chatJid) + unobservedOutboundOriginRetention)
      (s.echoes.drop s₁.echoes.length)) :
    (∀ e ∈ s.history.drop s₁.history.length,
        e.message = (messageId, chatJid) → e.isFromMe ≠ some true) ∧
      ∀ key t t' calls', Exec System.Step t calls' t' → t.db.Flagged key → t'.db.Flagged key := by
  refine ⟨?_, fun key t t' calls' run' hkey => flagged_run run' hkey⟩
  obtain ⟨echoes, events, hechoes, hevents, hkeep⟩ := guarded_run run (registered.guarded hjid)
  rw [hechoes, List.drop_left] at intime
  rw [hevents, List.drop_left]
  exact (hkeep intime).2

/-! ## A sample run -/

/-- The send under its two identities. -/
def sampleRegistration : Call :=
  sampleCall (.registerOutboundOrigins "M1" ["7@s.whatsapp.net", "15@lid"]) 10 0

/-- The send is registered. -/
def sampleSent : System := sampleChat.after sampleRegistration

/-- The echo comes with a history sync. -/
def sampleEcho : Call := sampleCall (.saveMessage (some sampleMessage) none) 20 1

/-- The origin is pruned, and a live duplicate of the echo follows. -/
def sampleReplay : List Call :=
  [sampleCall (.maintainNotifications true ["15@lid"] 10 (7 * day) 100) (8 * day) 2,
    sampleCall (.saveMessage (some sampleMessage) (some sampleRequest)) (8 * day) 3]

/-- The system in the end. -/
def sampleSettled : System := sampleReplay.foldl System.after (sampleSent.after sampleEcho)

theorem sampleSent_registers :
    sampleChat.Registers sampleRegistration sampleSent "M1" ["7@s.whatsapp.net", "15@lid"] where
  step := sampleStep _ _ _ _ (by decide) (by decide)
  call := rfl
  committed := by decide

theorem sampleReplay_run : Exec System.Step (sampleSent.after sampleEcho) sampleReplay sampleSettled :=
  (Exec.nil.snoc (sampleStep _ _ _ _ (by decide) (by decide))).snoc
    (sampleStep _ _ _ _ (by decide) (by decide))

theorem own_sends_never_notify_of_sampleReplay :
    sampleSettled.db.Flagged ("M1", "15@lid") ∧
      ((sampleSettled.history.drop sampleSent.history.length).filter
        fun e => e.message = ("M1", "15@lid")).all (fun e => e.isFromMe ≠ some true) = true := by
  have hecho : sampleSent.Step sampleEcho (sampleSent.after sampleEcho) :=
    sampleStep _ _ _ _ (by decide) (by decide)
  obtain ⟨hquiet, hmarks⟩ := own_sends_never_notify sampleSent_registers
    (List.mem_cons_of_mem _ List.mem_cons_self) ((Exec.single hecho).append sampleReplay_run)
    (by decide)
  refine ⟨?_, List.all_eq_true.mpr fun e he => ?_⟩
  · exact hmarks ("M1", "15@lid") (sampleSent.after sampleEcho) sampleSettled sampleReplay
      sampleReplay_run ⟨sampleMessage.stored true, by decide, rfl⟩
  · obtain ⟨hmem, hkey⟩ := List.mem_filter.mp he
    rw [decide_eq_true_eq] at hkey ⊢
    exact hquiet e hmem hkey

/-- The origin of the sample is gone when the duplicate arrives. -/
example : sampleSettled.db.origins.lookup ("M1", "15@lid") = none := by decide

end WhatsAppMcp.Bridge.Store
