import WhatsAppMcp.Controller.Redis.Steps

/-!
# Coherence of the session store

The keys of a chat hold one set of active events in four shapes: the records
under their ids, the ids under their sequences, the stream entries and, shared
by all chats, the identities.  `Coherent` says that the four agree, that every
active sequence is past the cursor, and that the lease and the turn can only
name the event at the head.

* `accepted_coherent`, `completed_coherent`: the two effects that change the
  set of active events.
* `Coherent.frame` and `Coherent.other`: everything else.
* `step_coherent`: no step of the store breaks it, whatever its reply.
* `active_in_one_chat`: an event id is active in at most one chat.
-/

namespace WhatsAppMcp.Controller.Redis

open Trace (Exec)

variable {Fp : Type}

/-! ## The invariant -/

/-- The keys of `chat` agree on its active events. -/
structure Coherent (fingerprint : NotificationV2 → Fp) (chat : String) (c : Core Fp) : Prop where
  canonical : ∃ n : Nat, c.cursor = n.repr
  seq_of_event : ∀ id e, c.events.lookup id = some e → c.seqs.lookup e.seq = some id
  event_of_seq : ∀ seq id, c.seqs.lookup seq = some id →
    ∃ e, c.events.lookup id = some e ∧ e.seq = seq
  past : ∀ id e, c.events.lookup id = some e → Decimal.less c.cursor e.seq = true
  raw : ∀ id e, c.events.lookup id = some e →
    e.raw.eventId = id ∧ e.raw.canonicalChatJid = chat ∧ e.seq = e.raw.chatSequence.repr ∧
      e.fp = fingerprint e.raw
  identity : ∀ id e, c.events.lookup id = some e → c.identities.lookup id = some ⟨chat, e.fp⟩
  nodup : (c.entries.map Prod.fst).Nodup
  le_last : ∀ entry ∈ c.entries, entry.1 ≤ c.lastId
  entry : ∀ streamId id, (streamId, id) ∈ c.entries ↔
    ∃ e, c.events.lookup id = some e ∧ e.id = streamId
  lease : ∀ id, c.lease.event = some id → c.seqs.lookup (Decimal.inc c.cursor) = some id
  turn : ∀ id, c.turnEvent = some id → c.seqs.lookup (Decimal.inc c.cursor) = some id

/-- Every chat is coherent, and every identity is that of an active event. -/
structure Store.Coherent (fingerprint : NotificationV2 → Fp) (s : Store Fp) : Prop where
  chat : ∀ chat, Redis.Coherent fingerprint chat (s.core chat)
  active_of_identity : ∀ id i, s.identities.lookup id = some i →
    ∃ e, (s.chats i.chat).events.lookup id = some e ∧ e.fp = i.fp

variable {fingerprint : NotificationV2 → Fp} {chat : String} {c : Core Fp}

theorem empty_coherent (fingerprint : NotificationV2 → Fp) (time : Nat) :
    (Store.empty time : Store Fp).Coherent fingerprint where
  chat _ := by
    refine ⟨⟨0, rfl⟩, ?_, ?_, ?_, ?_, ?_, List.nodup_nil, ?_, ?_, ?_, ?_⟩ <;>
      simp [Store.core, Keys.core, Store.keys, Store.empty, ChatKeys.empty, LeaseHash.empty,
        StateHash.empty, RedisStream.Stream.empty]
  active_of_identity id i h := by simp [Store.empty] at h

/-! ## What an active event is -/

/-- The head of the chat carries the sequence after the cursor. -/
theorem Coherent.head (h : Coherent fingerprint chat c) {id : String}
    (hhead : c.seqs.lookup (Decimal.inc c.cursor) = some id) :
    ∃ e, c.events.lookup id = some e ∧ e.seq = Decimal.inc c.cursor :=
  h.event_of_seq _ _ hhead

/-- Two active events with one sequence are one event. -/
theorem Coherent.id_inj (h : Coherent fingerprint chat c) {a b : String} {e f : EventRecord Fp}
    (ha : c.events.lookup a = some e) (hb : c.events.lookup b = some f) (hseq : e.seq = f.seq) :
    a = b := by
  have hseqA := h.seq_of_event a e ha
  rw [hseq, h.seq_of_event b f hb] at hseqA
  exact (Option.some.inj hseqA).symm

/-- Two active events with one stream id are one event. -/
theorem Coherent.id_inj_of_stream (h : Coherent fingerprint chat c) {a b : String}
    {e f : EventRecord Fp} (ha : c.events.lookup a = some e) (hb : c.events.lookup b = some f)
    (hid : e.id = f.id) : a = b := by
  have hA : (f.id, a) ∈ c.entries := (h.entry _ _).mpr ⟨e, ha, hid⟩
  have hB : (f.id, b) ∈ c.entries := (h.entry _ _).mpr ⟨f, hb, rfl⟩
  exact congrArg Prod.snd (List.inj_on_of_nodup_map h.nodup hA hB rfl)

/-! ## Effects that keep the active events -/

/-- The parts of the core that the invariant does not mention may change, and
so may the lease and the turn within their rule. -/
theorem Coherent.frame (h : Coherent fingerprint chat c) {d : Core Fp}
    (hcursor : d.cursor = c.cursor) (hevents : d.events = c.events) (hseqs : d.seqs = c.seqs)
    (hidentities : d.identities = c.identities) (hentries : d.entries = c.entries)
    (hlast : d.lastId = c.lastId)
    (hlease : ∀ id, d.lease.event = some id → c.seqs.lookup (Decimal.inc c.cursor) = some id)
    (hturn : ∀ id, d.turnEvent = some id → c.seqs.lookup (Decimal.inc c.cursor) = some id) :
    Coherent fingerprint chat d := by
  obtain ⟨hcanonical, hseq, hevent, hpast, hraw, hidentity, hnodup, hle, hentry, -, -⟩ := h
  have hinc : Decimal.inc c.cursor = Decimal.inc d.cursor := by rw [hcursor]
  rw [hinc] at hlease hturn
  constructor <;> simp only [hcursor, hevents, hseqs, hidentities, hentries, hlast] <;> assumption

/-- Another chat sees only the shared keys change. -/
theorem Coherent.other (h : Coherent fingerprint chat c) {app : AppHash}
    {identities : Hash (Identity Fp)}
    (hsame : ∀ id e, c.events.lookup id = some e →
      identities.lookup id = c.identities.lookup id) :
    Coherent fingerprint chat { c with app := app, identities := identities } :=
  { h with identity := fun id e he => (hsame id e he).trans (h.identity id e he) }

/-! ## A new active event -/

/-- An accepted event keeps the chat coherent. -/
theorem accepted_coherent {event : NotificationV2} {now : Nat}
    (h : Coherent fingerprint event.canonicalChatJid c)
    (hnew : c.events.lookup event.eventId = none)
    (hseq : ∀ other, c.seqs.lookup event.chatSequence.repr = some other → other = event.eventId)
    (hless : Decimal.less c.cursor event.chatSequence.repr = true) :
    Coherent fingerprint event.canonicalChatJid
      { c with
        entries := c.entries ++ [(RedisStream.nextId c.lastId now, event.eventId)]
        lastId := RedisStream.nextId c.lastId now
        events := c.events.insert event.eventId
          ⟨RedisStream.nextId c.lastId now, fingerprint event, event.chatSequence.repr, event⟩
        seqs := c.seqs.insert event.chatSequence.repr event.eventId
        identities := c.identities.insert event.eventId
          ⟨event.canonicalChatJid, fingerprint event⟩ } := by
  have hfree : c.seqs.lookup event.chatSequence.repr = none := by
    by_contra hsome
    obtain ⟨other, hother⟩ := Option.ne_none_iff_exists'.mp hsome
    obtain ⟨e, he, -⟩ := h.event_of_seq _ _ hother
    rw [hseq other hother, hnew] at he
    cases he
  have hwf : RedisStream.Wf ⟨c.entries, c.lastId, none⟩ := ⟨h.nodup, h.le_last⟩
  have hadd := RedisStream.xadd_wf hwf now event.eventId
  -- an event of the new map is the new one, or an old one under another id
  have hlookup : ∀ id e, (c.events.insert event.eventId
      ⟨RedisStream.nextId c.lastId now, fingerprint event, event.chatSequence.repr, event⟩).lookup id
        = some e → (id = event.eventId ∧
          e = ⟨RedisStream.nextId c.lastId now, fingerprint event, event.chatSequence.repr, event⟩) ∨
        (id ≠ event.eventId ∧ c.events.lookup id = some e) := by
    intro id e he
    by_cases hid : id = event.eventId
    · subst hid
      rw [AList.lookup_insert] at he
      exact Or.inl ⟨rfl, (Option.some.inj he).symm⟩
    · rw [AList.lookup_insert_ne hid] at he
      exact Or.inr ⟨hid, he⟩
  have hhead : ∀ id, c.seqs.lookup (Decimal.inc c.cursor) = some id →
      (c.seqs.insert event.chatSequence.repr event.eventId).lookup (Decimal.inc c.cursor) =
        some id := by
    intro id hid
    rw [AList.lookup_insert_ne, hid]
    rintro heq
    rw [heq, hfree] at hid
    cases hid
  constructor
  · exact h.canonical
  · intro id e he
    rcases hlookup id e he with ⟨rfl, rfl⟩ | ⟨-, he⟩
    · exact AList.lookup_insert _
    · have hold := h.seq_of_event id e he
      rw [AList.lookup_insert_ne, hold]
      rintro heq
      rw [heq, hfree] at hold
      cases hold
  · intro seq id hid
    by_cases heq : seq = event.chatSequence.repr
    · subst heq
      rw [AList.lookup_insert] at hid
      obtain rfl := Option.some.inj hid
      exact ⟨_, AList.lookup_insert _, rfl⟩
    · rw [AList.lookup_insert_ne heq] at hid
      obtain ⟨e, he, hseq'⟩ := h.event_of_seq seq id hid
      refine ⟨e, ?_, hseq'⟩
      rw [AList.lookup_insert_ne, he]
      rintro rfl
      rw [hnew] at he
      cases he
  · intro id e he
    rcases hlookup id e he with ⟨rfl, rfl⟩ | ⟨-, he⟩
    · exact hless
    · exact h.past id e he
  · intro id e he
    rcases hlookup id e he with ⟨rfl, rfl⟩ | ⟨-, he⟩
    · exact ⟨rfl, rfl, rfl, rfl⟩
    · exact h.raw id e he
  · intro id e he
    rcases hlookup id e he with ⟨rfl, rfl⟩ | ⟨hne, he⟩
    · exact AList.lookup_insert _
    · rw [AList.lookup_insert_ne hne]
      exact h.identity id e he
  · exact hadd.nodup
  · exact hadd.le_last
  · intro streamId id
    rw [List.mem_append, List.mem_singleton, h.entry streamId id]
    constructor
    · rintro (⟨e, he, hid⟩ | heq)
      · refine ⟨e, ?_, hid⟩
        rw [AList.lookup_insert_ne, he]
        rintro rfl
        rw [hnew] at he
        cases he
      · cases heq
        exact ⟨_, AList.lookup_insert _, rfl⟩
    · rintro ⟨e, he, hid⟩
      rcases hlookup id e he with ⟨rfl, rfl⟩ | ⟨-, he⟩
      · exact Or.inr (by rw [← hid])
      · exact Or.inl ⟨e, he, hid⟩
  · intro id hid
    exact hhead id (h.lease id hid)
  · intro id hid
    exact hhead id (h.turn id hid)

/-! ## The head is completed -/

/-- A sequence past the cursor that is not the next one is past the next one. -/
theorem less_inc {n : Nat} {seq : Nat} (hless : Decimal.less n.repr seq.repr = true)
    (hne : seq.repr ≠ Decimal.inc n.repr) : Decimal.less (Decimal.inc n.repr) seq.repr = true := by
  rw [Decimal.inc_repr] at hne ⊢
  rw [Decimal.less_repr] at hless ⊢
  have hne' : seq ≠ n + 1 := fun heq => hne (congrArg Nat.repr heq)
  omega

/-- Completing the event at the head keeps the chat coherent. -/
theorem completed_coherent {id : String} {e : EventRecord Fp} {app : AppHash} {revision : String}
    {lease : LeaseHash} (h : Coherent fingerprint chat c) (he : c.events.lookup id = some e)
    (hseq : e.seq = Decimal.inc c.cursor) (hlease : lease.event = none) :
    Coherent fingerprint chat
      { c with
        app := app
        identities := c.identities.erase id
        cursor := e.seq
        revision := revision
        turnEvent := none
        lease := lease
        entries := c.entries.filter (fun entry => entry.1 ≠ e.id)
        events := c.events.erase id
        seqs := c.seqs.erase e.seq
        tools := ∅ } := by
  have hlookup : ∀ id' e', (c.events.erase id).lookup id' = some e' →
      id' ≠ id ∧ c.events.lookup id' = some e' := by
    intro id' e' he'
    have hne : id' ≠ id := by
      rintro rfl
      rw [AList.lookup_erase] at he'
      cases he'
    exact ⟨hne, by rwa [AList.lookup_erase_ne hne] at he'⟩
  have hother : ∀ id' e', id' ≠ id → c.events.lookup id' = some e' → e'.seq ≠ e.seq :=
    fun id' e' hne he' heq => hne (h.id_inj he' he heq)
  have hwf : RedisStream.Wf ⟨c.entries, c.lastId, none⟩ := ⟨h.nodup, h.le_last⟩
  have hdel := RedisStream.xdel_wf hwf e.id
  obtain ⟨n, hn⟩ := h.canonical
  constructor
  · exact ⟨n + 1, by rw [hseq, hn, Decimal.inc_repr]⟩
  · intro id' e' he'
    obtain ⟨hne, he'⟩ := hlookup id' e' he'
    rw [AList.lookup_erase_ne (hother id' e' hne he')]
    exact h.seq_of_event id' e' he'
  · intro seq id' hid'
    have hne : seq ≠ e.seq := by
      rintro rfl
      rw [AList.lookup_erase] at hid'
      cases hid'
    rw [AList.lookup_erase_ne hne] at hid'
    obtain ⟨e', he', rfl⟩ := h.event_of_seq seq id' hid'
    refine ⟨e', ?_, rfl⟩
    rw [AList.lookup_erase_ne, he']
    rintro rfl
    rw [he] at he'
    exact hne (congrArg EventRecord.seq (Option.some.inj he').symm)
  · intro id' e' he'
    obtain ⟨hne, he'⟩ := hlookup id' e' he'
    have hpast := h.past id' e' he'
    have hne' := hother id' e' hne he'
    rw [(h.raw id' e' he').2.2.1, hseq, hn] at hne'
    rw [(h.raw id' e' he').2.2.1, hn] at hpast
    simp only [hseq, hn, (h.raw id' e' he').2.2.1]
    exact less_inc hpast hne'
  · intro id' e' he'
    exact h.raw id' e' (hlookup id' e' he').2
  · intro id' e' he'
    obtain ⟨hne, he'⟩ := hlookup id' e' he'
    rw [AList.lookup_erase_ne hne]
    exact h.identity id' e' he'
  · exact hdel.nodup
  · exact hdel.le_last
  · intro streamId id'
    simp only [List.mem_filter, decide_not, Bool.not_eq_eq_eq_not, Bool.not_true,
      decide_eq_false_iff_not, h.entry streamId id']
    constructor
    · rintro ⟨⟨e', he', rfl⟩, hne⟩
      refine ⟨e', ?_, rfl⟩
      rw [AList.lookup_erase_ne, he']
      rintro rfl
      rw [he] at he'
      exact hne (congrArg EventRecord.id (Option.some.inj he').symm)
    · rintro ⟨e', he', rfl⟩
      obtain ⟨hne, he'⟩ := hlookup id' e' he'
      exact ⟨⟨e', he', rfl⟩, fun heq => hne (h.id_inj_of_stream he' he heq)⟩
  · intro id' hid'
    rw [hlease] at hid'
    cases hid'
  · intro id' hid'
    cases hid'

/-! ## Steps -/

section Steps

variable [DecidableEq Fp] {chats : List String} {s t : Store Fp} {l : Label Fp}

/-- The event that passes `work()` is the one the lease names, and it is active. -/
theorem work_eq_some {clk : Clock} {k : Keys Fp} {w : WorkArgs Fp} {e : EventRecord Fp}
    (h : k.work clk w = some e) :
    k.Fenced clk w ∧ k.events.lookup w.eventId = some e ∧ e.id = w.streamId ∧
      e.fp = w.fingerprint ∧ k.lease.event = some w.eventId := by
  unfold Keys.work at h
  split at h
  · next hfenced =>
    split at h
    · cases h
    · next e' he =>
      split at h
      · cases h
      · next hfields =>
        push Not at hfields
        obtain rfl := Option.some.inj h
        exact ⟨hfenced, he, hfields.1, hfields.2.1, hfields.2.2⟩
  · cases h

/-- A call keeps its own chat coherent. -/
theorem effect_coherent {clk : Clock} {k : Keys Fp} {op : Op Fp} {r : Reply Fp} {d : Core Fp}
    (h : Coherent fingerprint chat k.core)
    (hissued : ∀ revision event fp completed identityRevision,
      op = .accept revision event fp completed identityRevision →
        chat = event.canonicalChatJid ∧ fp = fingerprint event)
    (heffect : Effect fingerprint clk k op r d) : Coherent fingerprint chat d := by
  cases heffect with
  | quiet => exact h
  | @accepted revision identityRevision event fp hrev hidRev hident hnew hseq hless =>
    obtain ⟨rfl, rfl⟩ := hissued _ _ _ _ _ rfl
    exact accepted_coherent h hnew hseq hless
  | appGranted | appRenewed | appReleased | swept | journalled | opened | settled | bound =>
    exact h.frame rfl rfl rfl rfl rfl rfl h.lease h.turn
  | granted untilMs intent hobs halive hfree hhead =>
    refine h.frame rfl rfl rfl rfl rfl rfl ?_ h.turn
    intro id hid
    obtain rfl := Option.some.inj hid
    exact hhead
  | renewed => exact h.frame rfl rfl rfl rfl rfl rfl h.lease h.turn
  | released => exact h.frame rfl rfl rfl rfl rfl rfl (fun id hid => by cases hid) h.turn
  | begun hwork =>
    refine h.frame rfl rfl rfl rfl rfl rfl h.lease ?_
    intro id hid
    obtain rfl := Option.some.inj hid
    exact h.lease _ (work_eq_some hwork).2.2.2.2
  | completed hwork hseq =>
    exact completed_coherent h (work_eq_some hwork).2.1 hseq rfl

/-- What a call does to the shared identities: nothing, or it adds that of an
event it makes active, or it removes that of an event it completes. -/
theorem effect_identities {clk : Clock} {k : Keys Fp} {op : Op Fp} {r : Reply Fp} {d : Core Fp}
    (heffect : Effect fingerprint clk k op r d) :
    (d.identities = k.identities ∧ d.events = k.events) ∨
      (∃ revision event fp identityRevision e,
        op = .accept revision event fp false identityRevision ∧ e.fp = fp ∧
        (∀ i, k.identities.lookup event.eventId = some i → i = ⟨event.canonicalChatJid, fp⟩) ∧
        k.events.lookup event.eventId = none ∧
        d.identities = k.identities.insert event.eventId ⟨event.canonicalChatJid, fp⟩ ∧
        d.events = k.events.insert event.eventId e) ∨
      ∃ id e, k.events.lookup id = some e ∧ d.identities = k.identities.erase id ∧
        d.events = k.events.erase id := by
  cases heffect with
  | accepted _ _ hident hnew =>
    exact Or.inr (Or.inl ⟨_, _, _, _, _, rfl, rfl, hident, hnew, rfl, rfl⟩)
  | completed hwork => exact Or.inr (Or.inr ⟨_, _, (work_eq_some hwork).2.1, rfl, rfl⟩)
  | _ => exact Or.inl ⟨rfl, rfl⟩

/-- No step of the store breaks its coherence, whatever its reply. -/
theorem step_coherent (h : s.Coherent fingerprint)
    (hstep : Store.Step chats fingerprint s l t) : t.Coherent fingerprint := by
  obtain ⟨-, ⟨-, hcore⟩ | ⟨c, r, -, hissued, -, -, heffect, hother⟩⟩ := hstep.cases_on_core
  · have hchats : ∀ chat, (t.chats chat).events = (s.chats chat).events := fun chat =>
      congrArg Core.events (hcore chat)
    have hidentities : t.identities = s.identities := congrArg Core.identities (hcore "")
    refine ⟨fun chat => hcore chat ▸ h.chat chat, fun id i hi => ?_⟩
    rw [hchats]
    exact h.active_of_identity id i (hidentities ▸ hi)
  have hissue : ∀ revision event fp completed identityRevision,
      c.op = .accept revision event fp completed identityRevision →
        c.chat = event.canonicalChatJid ∧ fp = fingerprint event := by
    intro revision event fp completed identityRevision hop
    have hmatch := hissued.2
    rw [hop] at hmatch
    exact hmatch
  have hself := effect_coherent (h.chat c.chat) hissue heffect
  have hevents : ∀ chat, chat ≠ c.chat → (t.chats chat).events = (s.chats chat).events :=
    fun chat hne => congrArg Core.events (hother chat hne)
  -- the identities after the step, and the events of the chat that moved
  have hids : t.identities = (t.core c.chat).identities := rfl
  have hown : (t.chats c.chat).events = (t.core c.chat).events := rfl
  rcases effect_identities heffect with ⟨hI, hE⟩ | ⟨rev, event, fp, idRev, e, hop, hfp, hident,
    hnew, hI, hE⟩ | ⟨id₀, e₀, he₀, hI, hE⟩
  · constructor
    · intro chat
      by_cases hne : chat = c.chat
      · exact hne ▸ hself
      · rw [hother chat hne]
        exact (h.chat chat).other fun id e he => by rw [hI]; rfl
    · intro id i hi
      rw [hids, hI] at hi
      obtain ⟨e, he, hfp⟩ := h.active_of_identity id i hi
      refine ⟨e, ?_, hfp⟩
      by_cases hne : i.chat = c.chat
      · rw [hne, hown, hE]
        exact hne ▸ he
      · rw [hevents _ hne]
        exact he
  · obtain ⟨hchat, -⟩ := hissue _ _ _ _ _ hop
    have hnone : s.identities.lookup event.eventId = none := by
      by_contra hsome
      obtain ⟨i, hi⟩ := Option.ne_none_iff_exists'.mp hsome
      obtain ⟨e', he', -⟩ := h.active_of_identity _ i hi
      rw [hident i hi, ← hchat] at he'
      exact absurd (hnew.symm.trans he') (by simp)
    constructor
    · intro chat
      by_cases hne : chat = c.chat
      · exact hne ▸ hself
      · rw [hother chat hne]
        refine (h.chat chat).other fun id e he => ?_
        rw [hI, AList.lookup_insert_ne]
        · rfl
        rintro rfl
        exact absurd (hnone.symm.trans ((h.chat chat).identity _ e he)) (by simp)
    · intro id i hi
      rw [hids, hI] at hi
      by_cases hid : id = event.eventId
      · subst hid
        rw [AList.lookup_insert] at hi
        obtain rfl := Option.some.inj hi
        refine ⟨e, ?_, hfp⟩
        rw [← hchat, hown, hE]
        exact AList.lookup_insert _
      · rw [AList.lookup_insert_ne hid] at hi
        obtain ⟨e', he', hfp'⟩ := h.active_of_identity id i hi
        refine ⟨e', ?_, hfp'⟩
        by_cases hne : i.chat = c.chat
        · rw [hne, hown, hE, AList.lookup_insert_ne hid]
          exact hne ▸ he'
        · rw [hevents _ hne]
          exact he'
  · constructor
    · intro chat
      by_cases hne : chat = c.chat
      · exact hne ▸ hself
      · rw [hother chat hne]
        refine (h.chat chat).other fun id e he => ?_
        rw [hI, AList.lookup_erase_ne]
        · rfl
        rintro rfl
        have hboth := ((h.chat chat).identity _ e he).symm.trans
          ((h.chat c.chat).identity _ e₀ he₀)
        exact hne (congrArg Identity.chat (Option.some.inj hboth))
    · intro id i hi
      rw [hids, hI] at hi
      have hne₀ : id ≠ id₀ := by
        rintro rfl
        rw [AList.lookup_erase] at hi
        cases hi
      rw [AList.lookup_erase_ne hne₀] at hi
      obtain ⟨e, he, hfp⟩ := h.active_of_identity id i hi
      refine ⟨e, ?_, hfp⟩
      by_cases hne : i.chat = c.chat
      · rw [hne, hown, hE, AList.lookup_erase_ne hne₀]
        exact hne ▸ he
      · rw [hevents _ hne]
        exact he

omit [DecidableEq Fp] in
/-- An event id is active in at most one chat. -/
theorem active_in_one_chat (h : s.Coherent fingerprint) {id chat₁ chat₂ : String}
    {e₁ e₂ : EventRecord Fp} (h₁ : (s.chats chat₁).events.lookup id = some e₁)
    (h₂ : (s.chats chat₂).events.lookup id = some e₂) : chat₁ = chat₂ := by
  have hboth := ((h.chat chat₁).identity id e₁ h₁).symm.trans ((h.chat chat₂).identity id e₂ h₂)
  exact congrArg Identity.chat (Option.some.inj hboth)

theorem run_coherent {time : Nat} {es : List (Label Fp)}
    (h : Exec (Store.Step chats fingerprint) (Store.empty time) es t) : t.Coherent fingerprint :=
  h.invariant (empty_coherent fingerprint time) fun _ _ _ hs hstep => step_coherent hs hstep

/-- Every reachable store is coherent, no event id is active in two chats of
it, and coherence survives every step, whatever the call and its reply. -/
theorem store_coherence {time : Nat} {es : List (Label Fp)}
    (h : Exec (Store.Step chats fingerprint) (Store.empty time) es t) :
    t.Coherent fingerprint ∧
      (∀ id chat₁ chat₂ e₁ e₂, (t.chats chat₁).events.lookup id = some e₁ →
        (t.chats chat₂).events.lookup id = some e₂ → chat₁ = chat₂) ∧
      ∀ (s u : Store Fp) (l : Label Fp), s.Coherent fingerprint →
        Store.Step chats fingerprint s l u → u.Coherent fingerprint :=
  ⟨run_coherent h, fun _ _ _ _ _ h₁ h₂ => active_in_one_chat (run_coherent h) h₁ h₂,
    fun _ _ _ hs hstep => step_coherent hs hstep⟩

end Steps

/-! ### A turn on one chat -/

def sampleEvent : NotificationV2 where
  eventId := "event-1"
  messageId := "message-1"
  eventTimestamp := "2026-01-01T00:00:00Z"
  receivedAt := "2026-01-01T00:00:01Z"
  chatSequence := 1
  senderJid := "1@s.whatsapp.net"
  senderAltJid := none
  isFromMe := false
  chatKind := .group
  chatJid := "1@g.us"
  canonicalChatJid := "1@g.us"
  chatSequence_pos := le_refl 1

def sampleSession : SessionBinding := ⟨"1@g.us", "session-1", "session-1.jsonl"⟩

/-- The work of the first claim below; an event is its own digest. -/
def sampleWork : WorkArgs NotificationV2 :=
  ⟨"app", "1", "worker", "1", "event-1", ⟨3, 0⟩, sampleEvent⟩

/-- One event is accepted and claimed, and its turn begins. -/
def sampleCalls : List (String × Nat × Op NotificationV2) :=
  [("1@g.us", 1, .init "1@g.us"), ("1@g.us", 2, .appAcquire "app" 100),
    ("1@g.us", 3, .accept "0" sampleEvent sampleEvent false "0"),
    ("1@g.us", 4, .claim ⟨"app", "1", "worker", 50, 10⟩), ("1@g.us", 5, .beginTurn sampleWork)]

theorem sampleCalls_driven : Driven ["1@g.us"] id 0 sampleCalls := by
  simp [sampleCalls, Driven, Call.Issued, sampleEvent]

example : ((Store.empty 0).drive sampleCalls).1.map (fun l => l.map Prod.snd) =
    [some .ok, some (.fence "1" 102), some .accepted,
      some (.claimed ⟨3, 0⟩ sampleEvent "1" 54), some .ok] := rfl

theorem store_coherence_of_sampleCalls :
    ((Store.empty 0).drive sampleCalls).2.Coherent id :=
  (store_coherence (drive_exec sampleCalls_driven)).1

end WhatsAppMcp.Controller.Redis
