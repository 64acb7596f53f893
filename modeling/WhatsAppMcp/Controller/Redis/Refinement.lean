import WhatsAppMcp.Controller.Redis.Coherence
import WhatsAppMcp.Lib.Ledger

/-!
# The session store is a ledger

Seen through its successful accepts, begins of turns and completions, the
session store is the machine of `Ledger`: a chat is a lane, an event id a key,
a digest a tag and a chat sequence a rank.  The cursor counts the deliveries
and the turn event says whether the head is started.

The one thing that the store does not know is which ids were used before: an
id that is completed leaves no trace in it.  `Shows` therefore takes the set of
completed ids beside the store, and `store_refines` asks that an accepted event
is not one of them; the callers of `accept` have to see to that.
-/

namespace WhatsAppMcp.Controller.Redis

variable {Fp : Type}

/-! ## Observations as entries -/

/-- The entry of the ledger that an observed call is. -/
def Observation.entry? : String × Observation Fp → Option (Ledger.Entry String String Fp)
  | (chat, .accepted event fp) => some (.submit chat ⟨event.eventId, fp, event.chatSequence⟩)
  | (chat, .begun w) => some (.start chat w.eventId)
  | (chat, .completed w) => some (.deliver chat w.eventId w.fingerprint)
  | _ => none

/-- The entry of a label. -/
def Label.entry? (fingerprint : NotificationV2 → Fp) (l : Label Fp) :
    Option (Ledger.Entry String String Fp) :=
  (Label.observation fingerprint l).bind Observation.entry?

/-- The log of a run. -/
def ledger (fingerprint : NotificationV2 → Fp) (ls : List (Label Fp)) :
    List (Ledger.Entry String String Fp) :=
  ls.filterMap (Label.entry? fingerprint)

@[simp] theorem Label.entry?_none (fingerprint : NotificationV2 → Fp) :
    Label.entry? fingerprint (none : Label Fp) = none := rfl

theorem Label.entry?_of_observe {fingerprint : NotificationV2 → Fp} {c : Call Fp} {r : Reply Fp}
    {o : Observation Fp} (h : observe fingerprint c.op r = some o) :
    Label.entry? fingerprint (some (c, r)) = Observation.entry? (c.chat, o) := by
  simp [Label.entry?, h]

/-- The ids that are completed after a label. -/
def Label.completes (fingerprint : NotificationV2 → Fp) (l : Label Fp) (id : String) : Prop :=
  ∃ chat fp, Label.entry? fingerprint l = some (.deliver chat id fp)

theorem completes_of_not_deliver {fingerprint : NotificationV2 → Fp} {l : Label Fp}
    {completed : String → Prop}
    (h : ∀ chat id fp, Label.entry? fingerprint l ≠ some (.deliver chat id fp)) :
    (fun id => completed id ∨ Label.completes fingerprint l id) = completed := by
  funext id
  simp [Label.completes, h]

theorem completes_of_deliver {fingerprint : NotificationV2 → Fp} {l : Label Fp}
    {completed : String → Prop} {chat id : String} {fp : Fp}
    (h : Label.entry? fingerprint l = some (.deliver chat id fp)) :
    (fun id' => completed id' ∨ Label.completes fingerprint l id') =
      fun id' => completed id' ∨ id' = id := by
  funext id'
  simp [Label.completes, h, eq_comm]

/-! ## The simulation relation -/

/-- The store is in the state `a` of the ledger, where `completed` are the ids
that are delivered. -/
structure Shows (s : Store Fp) (completed : String → Prop)
    (a : Ledger.State String String Fp) : Prop where
  delivered : ∀ chat, (s.core chat).cursor = (a.delivered chat).repr
  started : ∀ chat, a.started chat ↔ (s.core chat).turnEvent ≠ none
  active : ∀ chat item, a.active chat item ↔ ∃ e, (s.core chat).events.lookup item.key = some e ∧
    item.tag = e.fp ∧ item.rank = e.raw.chatSequence
  used : ∀ id, a.used id ↔ (∃ i, s.identities.lookup id = some i) ∨ completed id

theorem empty_shows (time : Nat) :
    Shows (Store.empty time : Store Fp) (fun _ => False) .empty where
  delivered _ := by
    simp only [Store.core, Keys.core, Store.keys, Store.empty, ChatKeys.cursor, counter,
      ChatKeys.empty, StateHash.empty, Ledger.State.empty, Option.getD_none]
    rfl
  started _ := ⟨False.elim, fun h => h rfl⟩
  active _ _ := ⟨False.elim, fun ⟨_, h, _⟩ => nomatch h⟩
  used _ := ⟨False.elim, fun h => h.elim (fun ⟨_, h⟩ => nomatch h) id⟩

variable {s t : Store Fp} {completed : String → Prop} {a : Ledger.State String String Fp}

/-- What the relation reads may stand still while the rest of the store moves. -/
theorem Shows.congr (h : Shows s completed a)
    (hcursor : ∀ chat, (t.core chat).cursor = (s.core chat).cursor)
    (hturn : ∀ chat, (t.core chat).turnEvent = (s.core chat).turnEvent)
    (hevents : ∀ chat, (t.core chat).events = (s.core chat).events)
    (hidentities : t.identities = s.identities) : Shows t completed a where
  delivered chat := (hcursor chat).trans (h.delivered chat)
  started chat := by rw [hturn]; exact h.started chat
  active chat item := by rw [hevents]; exact h.active chat item
  used id := by rw [hidentities]; exact h.used id

section Refinement

variable [DecidableEq Fp] {fingerprint : NotificationV2 → Fp} {chats : List String} {l : Label Fp}

omit [DecidableEq Fp] in
/-- The event at the head is the next item of its lane. -/
theorem head_active (hcoherent : s.Coherent fingerprint) (h : Shows s completed a) {chat id : String}
    {e : EventRecord Fp} (he : (s.core chat).events.lookup id = some e)
    (hseq : e.seq = Decimal.inc (s.core chat).cursor) :
    a.active chat ⟨id, e.fp, a.delivered chat + 1⟩ := by
  refine (h.active _ _).mpr ⟨e, he, rfl, ?_⟩
  have hraw := ((hcoherent.chat chat).raw id e he).2.2.1
  rw [hseq, h.delivered, Decimal.inc_repr] at hraw
  exact Decimal.repr_injective hraw

/-! ## The four kinds of calls -/

/-- What the ledger sees of a call: nothing, a submission, a start or a delivery. -/
inductive Viewed (fingerprint : NotificationV2 → Fp) (clk : Clock) (k : Keys Fp) (op : Op Fp)
    (r : Reply Fp) (d : Core Fp) : Prop
  | quiet (hobs : ∀ chat o, observe fingerprint op r = some o → Observation.entry? (chat, o) = none)
      (hcursor : d.cursor = k.cursor) (hturn : d.turnEvent = k.state.turnEvent)
      (hevents : d.events = k.events) (hidentities : d.identities = k.identities)
  | accepted {revision identityRevision : String} {event : NotificationV2} {fp : Fp}
      {e : EventRecord Fp}
      (hop : op = .accept revision event fp false identityRevision)
      (hobs : observe fingerprint op r = some (.accepted event fp))
      (hidRev : counter k.app.identityRevision = identityRevision)
      (hident : ∀ i, k.identities.lookup event.eventId = some i → i = ⟨event.canonicalChatJid, fp⟩)
      (hnew : k.events.lookup event.eventId = none)
      (hseq : ∀ other, k.seqs.lookup event.chatSequence.repr = some other → other = event.eventId)
      (hless : Decimal.less k.cursor event.chatSequence.repr = true)
      (hfp : e.fp = fp) (hraw : e.raw = event)
      (hcursor : d.cursor = k.cursor) (hturn : d.turnEvent = k.state.turnEvent)
      (hevents : d.events = k.events.insert event.eventId e)
      (hidentities : d.identities =
        k.identities.insert event.eventId ⟨event.canonicalChatJid, fp⟩)
  | begun {w : WorkArgs Fp} {e : EventRecord Fp}
      (hobs : observe fingerprint op r = some (.begun w)) (hwork : k.work clk w = some e)
      (hidle : k.state.turnEvent = none)
      (hcursor : d.cursor = k.cursor) (hturn : d.turnEvent = some w.eventId)
      (hevents : d.events = k.events) (hidentities : d.identities = k.identities)
  | completed {w : WorkArgs Fp} {e : EventRecord Fp}
      (hobs : observe fingerprint op r = some (.completed w)) (hwork : k.work clk w = some e)
      (hseq : e.seq = Decimal.inc k.cursor)
      (hcursor : d.cursor = e.seq) (hturn : d.turnEvent = none)
      (hevents : d.events = k.events.erase w.eventId)
      (hidentities : d.identities = k.identities.erase w.eventId)

theorem effect_viewed {clk : Clock} {k : Keys Fp} {op : Op Fp} {r : Reply Fp} {d : Core Fp}
    (heffect : Effect fingerprint clk k op r d) : Viewed fingerprint clk k op r d := by
  cases heffect with
  | quiet hobs => exact .quiet (fun _ o ho => by rw [hobs] at ho; cases ho) rfl rfl rfl rfl
  | accepted _ hidRev hident hnew hseq hless =>
    exact .accepted rfl rfl hidRev hident hnew hseq hless rfl rfl rfl rfl rfl rfl
  | granted _ _ hobs =>
    refine .quiet (fun _ o ho => ?_) rfl rfl rfl rfl
    rw [hobs] at ho
    cases ho
    rfl
  | released hop =>
    refine .quiet (fun _ o ho => ?_) rfl rfl rfl rfl
    rw [observe_of_releases hop] at ho
    cases ho
  | begun hwork hidle => exact .begun rfl hwork hidle rfl rfl rfl rfl
  | completed hwork hseq => exact .completed rfl hwork hseq rfl rfl rfl rfl
  | appGranted => exact .quiet (fun _ o ho => by cases ho; rfl) rfl rfl rfl rfl
  | _ => exact .quiet (fun _ o ho => by cases ho) rfl rfl rfl rfl

/-! ## One step -/

/-- What the relation reads of the other chats stands still. -/
def Elsewhere (s t : Store Fp) (chat : String) : Prop :=
  ∀ other, other ≠ chat → (t.core other).cursor = (s.core other).cursor ∧
    (t.core other).turnEvent = (s.core other).turnEvent ∧
      (t.core other).events = (s.core other).events

omit [DecidableEq Fp] in
theorem accepted_shows {event : NotificationV2} {e : EventRecord Fp}
    (hcoherent : s.Coherent fingerprint) (h : Shows s completed a)
    (hother : Elsewhere s t event.canonicalChatJid)
    (hunused : ¬ completed event.eventId)
    (hident : ∀ i, s.identities.lookup event.eventId = some i → i = ⟨event.canonicalChatJid, e.fp⟩)
    (hnew : (s.core event.canonicalChatJid).events.lookup event.eventId = none)
    (hseq : ∀ other, (s.core event.canonicalChatJid).seqs.lookup event.chatSequence.repr =
      some other → other = event.eventId)
    (hless : Decimal.less (s.core event.canonicalChatJid).cursor event.chatSequence.repr = true)
    (hraw : e.raw = event)
    (hcursor : (t.core event.canonicalChatJid).cursor = (s.core event.canonicalChatJid).cursor)
    (hturn : (t.core event.canonicalChatJid).turnEvent =
      (s.core event.canonicalChatJid).turnEvent)
    (hevents : (t.core event.canonicalChatJid).events =
      (s.core event.canonicalChatJid).events.insert event.eventId e)
    (hidentities : t.identities =
      s.identities.insert event.eventId ⟨event.canonicalChatJid, e.fp⟩) :
    ∃ b, Ledger.Step a
        (.submit event.canonicalChatJid ⟨event.eventId, e.fp, event.chatSequence⟩) b ∧
      Shows t completed b := by
  have hchat := hcoherent.chat event.canonicalChatJid
  have hunseen : s.identities.lookup event.eventId = none := by
    by_contra hsome
    obtain ⟨i, hi⟩ := Option.ne_none_iff_exists'.mp hsome
    obtain ⟨e', he', -⟩ := hcoherent.active_of_identity _ i hi
    rw [hident i hi] at he'
    exact absurd (hnew.symm.trans he') nofun
  refine ⟨_, .submit ?_ ?_ ?_, ?_⟩
  · rw [h.used]
    rintro (⟨i, hi⟩ | hcompleted)
    · rw [hunseen] at hi
      cases hi
    · exact hunused hcompleted
  · rw [h.delivered, Decimal.less_repr] at hless
    exact hless
  · rintro ⟨id, fp, rank⟩ hactive rfl
    obtain ⟨e', he', -, hrank⟩ := (h.active _ _).mp hactive
    have hseq' := hchat.seq_of_event id e' he'
    rw [(hchat.raw id e' he').2.2.1, ← hrank] at hseq'
    rw [hseq id hseq', hnew] at he'
    cases he'
  constructor
  · intro chat
    by_cases hne : chat = event.canonicalChatJid
    · rw [hne, hcursor]
      exact h.delivered _
    · rw [(hother chat hne).1]
      exact h.delivered chat
  · intro chat
    by_cases hne : chat = event.canonicalChatJid
    · rw [hne, hturn]
      exact h.started _
    · rw [(hother chat hne).2.1]
      exact h.started chat
  · rintro chat ⟨id, fp, rank⟩
    by_cases hne : chat = event.canonicalChatJid
    · subst hne
      rw [hevents]
      by_cases hid : id = event.eventId
      · subst hid
        simp only [AList.lookup_insert, Option.some.injEq, exists_eq_left', hraw, h.active, hnew,
          reduceCtorEq, false_and, exists_false, false_or, true_and, Ledger.Item.mk.injEq]
      · simp only [AList.lookup_insert_ne hid, Ledger.Item.mk.injEq, hid, false_and, and_false,
          or_false, h.active]
    · rw [(hother chat hne).2.2]
      simp only [hne, false_and, or_false, h.active]
  · intro id
    rw [hidentities]
    by_cases hid : id = event.eventId
    · subst hid
      simp [AList.lookup_insert]
    · simp [AList.lookup_insert_ne hid, hid, h.used]

omit [DecidableEq Fp] in
theorem begun_shows {chat : String} {id : String} {e : EventRecord Fp}
    (hcoherent : s.Coherent fingerprint) (h : Shows s completed a) (hother : Elsewhere s t chat)
    (he : (s.core chat).events.lookup id = some e)
    (hhead : e.seq = Decimal.inc (s.core chat).cursor) (hidle : (s.core chat).turnEvent = none)
    (hcursor : (t.core chat).cursor = (s.core chat).cursor)
    (hturn : (t.core chat).turnEvent = some id)
    (hevents : (t.core chat).events = (s.core chat).events)
    (hidentities : t.identities = s.identities) :
    ∃ b, Ledger.Step a (.start chat id) b ∧ Shows t completed b := by
  refine ⟨_, .start (head_active hcoherent h he hhead) rfl ?_, ?_⟩
  · rw [h.started, hidle]
    simp
  constructor
  · intro other
    by_cases hne : other = chat
    · rw [hne, hcursor]
      exact h.delivered _
    · rw [(hother other hne).1]
      exact h.delivered other
  · intro other
    by_cases hne : other = chat
    · subst hne
      simp [hturn]
    · rw [(hother other hne).2.1]
      simp [hne, h.started]
  · intro other item
    by_cases hne : other = chat
    · subst hne
      rw [hevents]
      exact h.active _ _
    · rw [(hother other hne).2.2]
      exact h.active _ _
  · intro id'
    rw [hidentities]
    exact h.used id'

omit [DecidableEq Fp] in
theorem completed_shows {chat : String} {id : String} {e : EventRecord Fp}
    (hcoherent : s.Coherent fingerprint) (h : Shows s completed a) (hother : Elsewhere s t chat)
    (he : (s.core chat).events.lookup id = some e)
    (hhead : e.seq = Decimal.inc (s.core chat).cursor)
    (hcursor : (t.core chat).cursor = e.seq) (hturn : (t.core chat).turnEvent = none)
    (hevents : (t.core chat).events = (s.core chat).events.erase id)
    (hidentities : t.identities = s.identities.erase id) :
    ∃ b, Ledger.Step a (.deliver chat id e.fp) b ∧
      Shows t (fun id' => completed id' ∨ id' = id) b := by
  have hactive := head_active hcoherent h he hhead
  refine ⟨_, .deliver hactive rfl, ?_⟩
  constructor
  · intro other
    by_cases hne : other = chat
    · subst hne
      rw [hcursor, hhead, h.delivered, Decimal.inc_repr]
      simp
    · rw [(hother other hne).1]
      simp [hne, h.delivered]
  · intro other
    by_cases hne : other = chat
    · subst hne
      simp [hturn]
    · rw [(hother other hne).2.1]
      simp [hne, h.started]
  · rintro other ⟨id', fp, rank⟩
    by_cases hne : other = chat
    · subst hne
      rw [hevents]
      by_cases hid : id' = id
      · subst hid
        simp only [AList.lookup_erase, reduceCtorEq, false_and, exists_false, iff_false, not_and,
          not_not, true_and]
        intro hold
        have hunique := (h.active _ _).mp hold
        have hhead' := (h.active _ _).mp hactive
        simp only [he, Option.some.injEq, exists_eq_left'] at hunique hhead'
        simp [hunique.1, hunique.2, hhead'.2]
      · simp only [AList.lookup_erase_ne hid, Ledger.Item.mk.injEq, hid, false_and, and_false,
          not_false_eq_true, and_true, h.active]
    · rw [(hother other hne).2.2]
      simp only [hne, false_and, not_false_eq_true, and_true, h.active]
  · intro id'
    have hidentity := (hcoherent.chat chat).identity id e he
    rw [hidentities]
    by_cases hid : id' = id
    · subst hid
      simp only [or_true, iff_true, h.used]
      exact Or.inl ⟨_, hidentity⟩
    · simp [AList.lookup_erase_ne hid, hid, h.used]

/-- One step of the store is a stutter or one step of the ledger. -/
theorem store_refines (hcoherent : s.Coherent fingerprint) (h : Shows s completed a)
    (hstep : Store.Step chats fingerprint s l t)
    (hfresh : ∀ chat item, Label.entry? fingerprint l = some (.submit chat item) →
      ¬ completed item.key) :
    Trace.Simulates Ledger.Step
      (Shows t fun id => completed id ∨ Label.completes fingerprint l id) a
      (Label.entry? fingerprint l) := by
  obtain ⟨-, ⟨rfl, hcore⟩ | ⟨c, r, rfl, hissued, -, -, heffect, hother⟩⟩ := hstep.cases_on_core
  · rw [completes_of_not_deliver (fun _ _ _ hentry => by cases hentry)]
    exact h.congr (fun chat => by rw [hcore]) (fun chat => by rw [hcore])
      (fun chat => by rw [hcore]) (congrArg Core.identities (hcore ""))
  have helse : Elsewhere s t c.chat := fun other hne => by
    rw [hother other hne]
    exact ⟨rfl, rfl, rfl⟩
  cases effect_viewed heffect with
  | quiet hobs hcursor hturn hevents hidentities =>
    have hnone : Label.entry? fingerprint (some (c, r)) = none := by
      cases ho : observe fingerprint c.op r with
      | none => simp [Label.entry?, ho]
      | some o => rw [Label.entry?_of_observe ho, hobs c.chat o ho]
    rw [completes_of_not_deliver (fun _ _ _ hentry => by rw [hnone] at hentry; cases hentry), hnone]
    refine h.congr ?_ ?_ ?_ hidentities <;> intro chat <;> by_cases hne : chat = c.chat
    · exact hne ▸ hcursor
    · exact (helse chat hne).1
    · exact hne ▸ hturn
    · exact (helse chat hne).2.1
    · exact hne ▸ hevents
    · exact (helse chat hne).2.2
  | @accepted revision identityRevision event fp e hop hobs _ hident hnew hseq hless hfp hraw hcursor
      hturn hevents hidentities =>
    have hchat : c.chat = event.canonicalChatJid := by
      have hmatch := hissued.2
      rw [hop] at hmatch
      exact hmatch.1
    have hentry := Label.entry?_of_observe hobs
    rw [hchat] at helse hnew hseq hless hcursor hturn hevents hentry
    subst hfp
    rw [hentry]
    obtain ⟨b, hb, hshows⟩ := accepted_shows hcoherent h helse (hfresh _ _ hentry) hident hnew hseq
      hless hraw hcursor hturn hevents hidentities
    refine ⟨b, hb, ?_⟩
    rwa [completes_of_not_deliver]
    intro chat id fp
    rw [hentry]
    nofun
  | @begun w e hobs hwork hidle hcursor hturn hevents hidentities =>
    obtain ⟨-, he, -, -, hlease⟩ := work_eq_some hwork
    have hentry := Label.entry?_of_observe hobs
    have hhead := (hcoherent.chat c.chat).lease w.eventId hlease
    obtain ⟨e', he', hseq⟩ := (hcoherent.chat c.chat).head hhead
    obtain rfl := Option.some.inj (he.symm.trans he')
    rw [hentry]
    obtain ⟨b, hb, hshows⟩ := begun_shows hcoherent h helse he hseq hidle hcursor hturn hevents
      hidentities
    refine ⟨b, hb, ?_⟩
    rwa [completes_of_not_deliver]
    intro chat id fp
    rw [hentry]
    nofun
  | @completed w e hobs hwork hseq hcursor hturn hevents hidentities =>
    obtain ⟨-, he, -, hfp, -⟩ := work_eq_some hwork
    have hentry := Label.entry?_of_observe hobs
    rw [hentry]
    obtain ⟨b, hb, hshows⟩ := completed_shows hcoherent h helse he hseq hcursor hturn hevents
      hidentities
    refine ⟨b, hfp ▸ hb, ?_⟩
    rwa [completes_of_deliver hentry]

end Refinement

end WhatsAppMcp.Controller.Redis
