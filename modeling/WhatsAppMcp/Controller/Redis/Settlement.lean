import WhatsAppMcp.Controller.Redis.Journal
import WhatsAppMcp.Controller.Redis.Linearization

/-!
# What becomes of a begun attempt

The law of one step, `native_effect`, along a run: an attempt that was begun
stays in the journal of its chat until its event is completed, and an event is
completed only when all attempts begun for it are confirmed and reported by the
marker.

* `record_run`: from a record on.
* `begun_run`: from the call that began it on.
* `completed_settled`: at the completion of its event.
-/

namespace WhatsAppMcp.Controller.Redis

open Trace (Exec)

variable {Fp : Type} {old mid new : JournalEnvelope Fp}

theorem Advances.trans (h : Advances old mid) (h' : Advances mid new) : Advances old new where
  eventFingerprint := h'.eventFingerprint.trans h.eventFingerprint
  session := h'.session.trans h.session
  attempt := by
    have hold := h.attempt
    have hmid := h'.attempt
    cases hos : old.state
    cases hms : mid.state
    cases hns : new.state
    simp_all
  status := by
    rcases h'.status with hsame | ⟨hopen, hmoved⟩
    · rw [hsame]
      exact h.status
    · rcases h.status with hsame | ⟨-, hmoved'⟩
      · exact Or.inr ⟨hsame ▸ hopen, hmoved⟩
      · exact absurd hopen hmoved'

/-- The call of an attempt, its tool, its destination and its event stay. -/
theorem Advances.call (h : Advances old new) :
    new.state.toolCallId = old.state.toolCallId ∧ new.state.tool = old.state.tool ∧
      new.state.destination = old.state.destination ∧ new.state.eventId = old.state.eventId := by
  have htoolCallId := congrArg MutationState.toolCallId h.attempt
  have htool := congrArg MutationState.tool h.attempt
  have hdestination := congrArg MutationState.destination h.attempt
  have hevent := congrArg MutationState.eventId h.attempt
  exact ⟨htoolCallId, htool, hdestination, hevent⟩

/-- A record and what it is later: a settled one keeps its status, and a
confirmed one stays as it is. -/
structure Continues (old new : JournalEnvelope Fp) : Prop where
  advances : Advances old new
  kept : old.state.status = .confirmed → new = old

theorem Continues.refl (envelope : JournalEnvelope Fp) : Continues envelope envelope :=
  ⟨.refl envelope, fun _ => rfl⟩

theorem Continues.trans (h : Continues old mid) (h' : Continues mid new) : Continues old new where
  advances := h.advances.trans h'.advances
  kept hconfirmed := by
    obtain rfl := h.kept hconfirmed
    exact h'.kept hconfirmed

theorem Continues.status (h : Continues old new) (hsettled : old.state.status ≠ .attempting) :
    new.state.status = old.state.status :=
  h.advances.status.resolve_right fun hopen => hsettled hopen.1

variable [DecidableEq Fp] {chats : List String} {fingerprint : NotificationV2 → Fp}
  {s t : Store Fp} {l : Label Fp} {es : List (Label Fp)} {chat a : String}

/-- A completion of the event `id` of the chat. -/
def Completes (fingerprint : NotificationV2 → Fp) (es : List (Label Fp)) (chat id : String) : Prop :=
  ∃ w, (chat, .completed w) ∈ observed fingerprint es ∧ w.eventId = id

omit [DecidableEq Fp] in
theorem Completes.append {chat id : String} (h : Completes fingerprint es chat id)
    (fs : List (Label Fp)) : Completes fingerprint (es ++ fs) chat id := by
  obtain ⟨w, hw, hid⟩ := h
  refine ⟨w, ?_, hid⟩
  rw [observed, List.filterMap_append]
  exact List.mem_append_left _ hw

/-- One step from a native record. -/
theorem record_step (hjournal : ∀ chat, Journalled (s.core chat))
    (hlookup : (s.chats chat).tools.lookup a = some (.native old))
    (hstep : Store.Step chats fingerprint s l t) :
    (∃ new, (t.chats chat).tools.lookup a = some (.native new) ∧ Continues old new) ∨
      Completes fingerprint [l] chat old.state.eventId := by
  have hsame : (t.chats chat).tools = (s.chats chat).tools →
      ∃ new, (t.chats chat).tools.lookup a = some (.native new) ∧ Continues old new :=
    fun htools => ⟨old, by rw [htools, hlookup], .refl old⟩
  obtain ⟨-, ⟨-, hcore⟩ | ⟨c, r, rfl, -, -, -, heffect, hother⟩⟩ := hstep.cases_on_core
  · exact Or.inl (hsame (congrArg Core.tools (hcore chat)))
  by_cases hne : chat = c.chat
  · subst hne
    rcases native_effect heffect (hjournal c.chat).keyed hlookup with
      ⟨new, hnew, hmoved⟩ | ⟨w, session, sends, hop, rfl, hevent, -, -⟩
    · exact Or.inl ⟨new, hnew, hmoved.advances, hmoved.kept⟩
    · refine Or.inr ⟨w, ?_, hevent⟩
      simp [observed, hop, observe]
  · exact Or.inl (hsame (congrArg Core.tools (hother chat hne)))

/-- From a native record on. -/
theorem record_run (hleased : s.Leased) (hjournal : ∀ chat, Journalled (s.core chat))
    (hlookup : (s.chats chat).tools.lookup a = some (.native old))
    (h : Exec (Store.Step chats fingerprint) s es t) :
    (∃ new, (t.chats chat).tools.lookup a = some (.native new) ∧ Continues old new) ∨
      Completes fingerprint es chat old.state.eventId := by
  induction h with
  | nil => exact Or.inl ⟨old, hlookup, .refl old⟩
  | @snoc es t u l run last ih =>
    rcases ih with ⟨mid, hmid, hcontinues⟩ | hcompleted
    · have hjournal' : t.Leased ∧ ∀ chat, Journalled (t.core chat) :=
        run.invariant (P := fun s => s.Leased ∧ ∀ chat, Journalled (s.core chat))
          ⟨hleased, hjournal⟩ fun _ _ _ hs hstep =>
            ⟨step_leased hs.1 hstep, step_journalled hs.1 hs.2 hstep⟩
      rcases record_step hjournal'.2 hmid last with ⟨new, hnew, hcontinues'⟩ | ⟨w, hw, hevent⟩
      · exact Or.inl ⟨new, hnew, hcontinues.trans hcontinues'⟩
      · refine Or.inr ⟨w, ?_, ?_⟩
        · rw [observed, List.filterMap_append]
          exact List.mem_append_right _ hw
        · exact hevent.trans hcontinues.advances.call.2.2.2
    · exact Or.inr (hcompleted.append [l])

/-! ## From the begin on -/

/-- The call that begins the attempt `record` under the id `a`. -/
def BeginsAttempt (l : Label Fp) (chat a : String) (w : WorkArgs Fp) (record : JournalEnvelope Fp) :
    Prop :=
  ∃ session clk, l = some (⟨chat, .nativeJournalBegin w a record session, clk⟩, .ok)

/-- What a begin finds that is answered `ok`, and what it leaves. -/
structure Opening (k k' : Keys Fp) (clk : Clock) (w : WorkArgs Fp) (a : String)
    (record : JournalEnvelope Fp) : Prop where
  held : ∃ e, k.work clk w = some e
  fresh : k.tools.lookup a = none
  turn : k.state.turnEvent = some w.eventId
  event : record.state.eventId = w.eventId
  fingerprint : record.eventFingerprint = w.fingerprint
  status : record.state.status = .attempting
  stored : k'.tools.lookup a = some (.native record)

theorem nativeJournalBegin_ok {clk : Clock} {k k' : Keys Fp} {w : WorkArgs Fp}
    {record : JournalEnvelope Fp} {session : SessionBinding}
    (h : nativeJournalBegin clk k w a record session = (.ok, k')) :
    Opening k k' clk w a record := by
  obtain ⟨-, hr, -⟩ | ⟨e, hwork, hbody⟩ := guarded_cases h
  · cases hr
  split at hbody
  · cases hbody
  next hturn =>
  split at hbody
  · cases hbody
  next hfields =>
  split at hbody
  · cases hbody
  next hnew =>
  split at hbody
  · cases hbody
  push Not at hturn hfields
  obtain ⟨-, rfl⟩ := Prod.mk.inj hbody
  exact ⟨⟨e, hwork⟩, Option.not_isSome_iff_eq_none.mp hnew, hturn.1, hfields.2.1, hfields.1,
    hfields.2.2.2, AList.lookup_insert _⟩

/-- A begin that is answered `ok` runs while the tuple passes, and leaves the record. -/
theorem begin_step {w : WorkArgs Fp} {record : JournalEnvelope Fp} {session : SessionBinding}
    {clk : Clock} (hstep : Store.Step chats fingerprint s
      (some (⟨chat, .nativeJournalBegin w a record session, clk⟩, .ok)) t) :
    s.time ≤ clk.now 0 ∧ Opening (s.keys chat) (t.keys chat) clk w a record := by
  cases hstep with
  | call hissued hstart hend hrun =>
    refine ⟨hstart, ?_⟩
    rw [Store.keys_write]
    exact nativeJournalBegin_ok hrun

theorem begins_opening {w : WorkArgs Fp} {record : JournalEnvelope Fp}
    (hbegins : BeginsAttempt l chat a w record) (hstep : Store.Step chats fingerprint s l t) :
    ∃ clk, Opening (s.keys chat) (t.keys chat) clk w a record := by
  obtain ⟨session, clk, rfl⟩ := hbegins
  exact ⟨clk, (begin_step hstep).2⟩

theorem begun_run {time : Nat} (h : Exec (Store.Step chats fingerprint) (Store.empty time) es s)
    {w : WorkArgs Fp} {record : JournalEnvelope Fp} (hl : l ∈ es)
    (hbegins : BeginsAttempt l chat a w record) :
    (∃ new, (s.chats chat).tools.lookup a = some (.native new) ∧ Continues record new) ∨
      Completes fingerprint es chat record.state.eventId := by
  obtain ⟨pre, post, rfl⟩ := List.append_of_mem hl
  obtain ⟨u, v, hfirst, hstep, hrest⟩ := h.split_cons
  obtain ⟨clk, hopening⟩ := begins_opening hbegins hstep
  obtain ⟨hleased, hjournal⟩ := run_journalled (hfirst.snoc hstep)
  rcases record_run hleased hjournal hopening.stored hrest with hnew | ⟨v, hv, hevent⟩
  · exact Or.inl hnew
  · refine Or.inr ⟨v, ?_, hevent⟩
    rw [← List.singleton_append, ← List.append_assoc, observed, List.filterMap_append]
    exact List.mem_append_right _ hv

/-- After its begin the tuple of an attempt is known. -/
theorem begun_known {time : Nat} (h : Exec (Store.Step chats fingerprint) (Store.empty time) es s)
    {w : WorkArgs Fp} {record : JournalEnvelope Fp} (hl : l ∈ es)
    (hbegins : BeginsAttempt l chat a w record) :
    Known (s.core chat) w ∧ openedArgs record w.streamId = w := by
  obtain ⟨pre, post, rfl⟩ := List.append_of_mem hl
  obtain ⟨u, v, hfirst, hstep, hrest⟩ := h.split_cons
  obtain ⟨clk, hopening⟩ := begins_opening hbegins hstep
  constructor
  · obtain ⟨e, hwork⟩ := hopening.held
    have hleased := (run_journalled hfirst).1
    obtain ⟨x, hx⟩ := hleased.app
    obtain ⟨m, hm⟩ := hleased.chat chat
    exact hrest.invariant (P := fun s => Known (s.core chat) w)
      (step_known hstep (known_of_work hx hm hwork)) fun _ _ _ hs hstep => step_known hstep hs
  · obtain ⟨session, clk', rfl⟩ := hbegins
    have howned : w.OwnedBy record.state.ownership := by
      cases hstep with
      | call hissued => exact hissued.2
    obtain ⟨happOwner, happEpoch, hchatOwner, hchatEpoch⟩ := howned
    simp only [openedArgs, happOwner, happEpoch, hchatOwner, hchatEpoch, hopening.event,
      hopening.fingerprint]

/-- While an attempt is open, only the tuple that began it passes. -/
theorem passes_of_begun {time : Nat}
    (h : Exec (Store.Step chats fingerprint) (Store.empty time) es s) {w v : WorkArgs Fp}
    {record : JournalEnvelope Fp} (hl : l ∈ es) (hbegins : BeginsAttempt l chat a w record)
    (hlookup : (s.chats chat).tools.lookup a = some (.native old))
    (hadvances : Advances record old) (hopen : old.state.status = .attempting) {clk : Clock}
    {e : EventRecord Fp} (hpass : (s.keys chat).work clk v = some e) : v = w := by
  obtain ⟨hknown, hargs⟩ := begun_known h hl hbegins
  obtain ⟨streamId, hgranted, -⟩ := ((run_journalled h).2 chat).opened a old hlookup hopen
  have hold : openedArgs old streamId = { w with streamId := streamId } := by
    rw [hadvances.args_eq, ← hargs]
    rfl
  rw [hold] at hgranted
  obtain ⟨⟨-, hchat, hsame⟩, hevent, hid, hfp, hhead⟩ := work_eq_some hpass
  have hchatOwner := hgranted.owner _ hchat.1
  have hchatEpoch := Option.some.inj (hchat.2.1.symm.trans hgranted.epoch)
  have happEpoch := Option.some.inj (hsame.1.symm.trans hgranted.app.1)
  have happOwner := Option.some.inj (hsame.2.symm.trans hgranted.app.2)
  have heventId := hgranted.event _ hhead
  obtain ⟨e', hevent', hid', hfp'⟩ := hknown.record hgranted.epoch (hhead.trans (by rw [heventId]))
  have heventId' : v.eventId = w.eventId := heventId
  rw [← heventId'] at hevent'
  obtain rfl := Option.some.inj (hevent.symm.trans hevent')
  obtain ⟨⟩ := v
  obtain ⟨⟩ := w
  simp_all

/-! ## At the completion -/

/-- A completion finds every record settled. -/
theorem complete_ok {clk : Clock} {k k' : Keys Fp} {w : WorkArgs Fp} {session : SessionBinding}
    {sends : List ConfirmedSend} (h : complete clk k w session sends = (.ok, k')) :
    (∃ e, k.work clk w = some e) ∧ ∀ record ∈ k.tools.vals, Settled record w sends := by
  obtain ⟨-, hr, -⟩ | ⟨e, hwork, hbody⟩ := guarded_cases h
  · cases hr
  split at hbody
  · cases hbody
  split at hbody
  · cases hbody
  next hsettled =>
  push Not at hsettled
  exact ⟨⟨e, hwork⟩, hsettled⟩

theorem complete_step {w : WorkArgs Fp} {session : SessionBinding} {sends : List ConfirmedSend}
    {clk : Clock} (hstep : Store.Step chats fingerprint s
      (some (⟨chat, .complete w session sends, clk⟩, .ok)) t) :
    (∃ e, (s.keys chat).work clk w = some e) ∧
      ∀ record ∈ (s.keys chat).tools.vals, Settled record w sends := by
  cases hstep with
  | call _ _ _ hrun => exact complete_ok hrun

/-- The attempt is confirmed in the journal, and one of the sends reports it. -/
def Store.Reported (s : Store Fp) (chat a : String) (record : JournalEnvelope Fp)
    (sends : List ConfirmedSend) : Prop :=
  ∃ new, (s.chats chat).tools.lookup a = some (.native new) ∧ Advances record new ∧
    new.state.status = .confirmed ∧ ∃ sent ∈ sends, sent.Reports new.state

/-- When an event is completed, its completion marker is durable, and every
attempt that was begun for the event is confirmed and reported by that marker. -/
theorem completed_settled {time : Nat} {pre post : List (Label Fp)} {u : System Fp}
    {w : WorkArgs Fp} {session : SessionBinding} {sends : List ConfirmedSend} {clk : Clock}
    (h : Exec (System.Step .durable chats fingerprint) (System.empty time)
      (pre ++ some (⟨chat, .complete w session sends, clk⟩, .ok) :: post) u) :
    ∃ v, Exec (System.Step .durable chats fingerprint) (System.empty time) pre v ∧
      (∃ m ∈ v.markers, VerifiedProof m chat w.eventId ∧ m.confirmedSends = sends) ∧
      ∀ l a x record, l ∈ pre → BeginsAttempt l chat a x record → record.state.eventId = w.eventId →
        v.store.Reported chat a record sends := by
  obtain ⟨v, v', hfirst, hstep, -⟩ := h.split_cons
  refine ⟨v, hfirst, ?_, ?_⟩
  · cases hstep with
    | client hstore hop =>
      obtain ⟨m, hm, hverified, -, -, hsends⟩ := (hop _ _ rfl).2
      exact ⟨m, hm, hverified, hsends⟩
  · intro l a x record hl hbegins hevent
    have hsettled := complete_step hstep.store
    rcases begun_run (exec_store hfirst) hl hbegins with ⟨new, hnew, hcontinues⟩ | ⟨y, hy, hid⟩
    · have hnew' := hsettled.2 _ (mem_vals.mpr ⟨a, hnew⟩)
      exact ⟨new, hnew, hcontinues.advances, hnew'.1, hnew'.2.2.2⟩
    · -- a completed event is never active again
      obtain ⟨e, hwork⟩ := hsettled.1
      have hactive := (work_eq_some hwork).2.1
      have hgone : (v.store.core chat).events.lookup y.eventId = none :=
        completed_inactive (markers_complete hfirst) hy
      rw [hid, hevent] at hgone
      exact absurd (hactive.symm.trans hgone) nofun

end WhatsAppMcp.Controller.Redis
