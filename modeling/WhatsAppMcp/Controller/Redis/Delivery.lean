import WhatsAppMcp.Controller.Redis.Accept

/-!
# In-order, exactly-once completion

The system of the store and its calls of `accept` refines the ledger, so every
event is completed once, in the order of its chat.

The point where the store alone is not enough is an id that was completed
before.  A call of `accept` looks for its marker in every chat, and
`identityRevision` counts the completions: when the script finds the revision
of the snapshot, nothing was completed since the lookups began, and the lookups
speak for the present.  `CallSound` is this argument for a call between two of
its awaits.

* `system_refines`: one step of the system is a stutter or a step of the ledger.
* `system_lawful`: the log of every run is lawful.
* `markers_complete`: marker append before `complete` keeps the promise that
  lookups make.
-/

namespace WhatsAppMcp.Controller.Redis

open Trace (Exec)

variable {Fp : Type} [DecidableEq Fp] {fingerprint : NotificationV2 → Fp} {chats : List String}

/-! ## The identity revision counts completions -/

theorem identityRevision_effect {clk : Clock} {k : Keys Fp} {op : Op Fp} {r : Reply Fp}
    {d : Core Fp} (heffect : Effect fingerprint clk k op r d) :
    ((∃ w, observe fingerprint op r = some (.completed w)) ∧
        d.app.identityRevision = bump k.app.identityRevision) ∨
      ((∀ w, observe fingerprint op r ≠ some (.completed w)) ∧
        d.app.identityRevision = k.app.identityRevision) := by
  cases heffect with
  | quiet hobs => exact Or.inr ⟨fun w h => (by rw [hobs] at h; cases h), rfl⟩
  | granted _ _ hobs => exact Or.inr ⟨fun w h => (by rw [hobs] at h; cases h), rfl⟩
  | released hop => exact Or.inr ⟨fun w h => (by rw [observe_of_releases hop] at h; cases h), rfl⟩
  | completed => exact Or.inl ⟨⟨_, rfl⟩, rfl⟩
  | _ => exact Or.inr ⟨nofun, rfl⟩

omit [DecidableEq Fp] in
theorem completionOf_of_observe {c : Call Fp} {r : Reply Fp} {w : WorkArgs Fp}
    (h : observe fingerprint c.op r = some (.completed w)) :
    completionOf fingerprint (some (c, r)) = [(c.chat, w.eventId)] := by
  simp [completionOf, h]

omit [DecidableEq Fp] in
theorem complete_of_observe {op : Op Fp} {r : Reply Fp} {w : WorkArgs Fp}
    (h : observe fingerprint op r = some (.completed w)) :
    ∃ session sends, op = .complete w session sends := by
  cases op <;> cases r <;> cases h
  exact ⟨_, _, rfl⟩

omit [DecidableEq Fp] in
theorem completionOf_eq_nil {c : Call Fp} {r : Reply Fp}
    (h : ∀ w, observe fingerprint c.op r ≠ some (.completed w)) :
    completionOf fingerprint (some (c, r)) = [] := by
  cases ho : observe fingerprint c.op r with
  | none => simp [completionOf, ho]
  | some o =>
    cases o with
    | completed w => exact absurd ho (h w)
    | _ => simp [completionOf, ho]

omit [DecidableEq Fp] in
/-- The completions of a label are the ids it completes. -/
theorem mem_completionOf {l : Label Fp} {id : String} :
    (∃ chat, (chat, id) ∈ completionOf fingerprint l) ↔ Label.completes fingerprint l id := by
  simp only [Label.completes, Label.entry?, completionOf]
  cases ho : Label.observation fingerprint l with
  | none => simp
  | some x =>
    obtain ⟨chat, o⟩ := x
    cases o <;> simp [Observation.entry?, eq_comm]

/-- A step of the store counts its completion in the identity revision. -/
theorem identityRevision_step {s t : Store Fp} {l : Label Fp} {completions : List (String × String)}
    (hstep : Store.Step chats fingerprint s l t)
    (h : counter s.app.identityRevision = completions.length.repr) :
    counter t.app.identityRevision =
        (completions ++ completionOf fingerprint l).length.repr ∧
      ∀ p ∈ completionOf fingerprint l, p.1 ∈ chats := by
  obtain ⟨-, ⟨rfl, hcore⟩ | ⟨c, r, rfl, hissued, -, -, heffect, -⟩⟩ := hstep.cases_on_core
  · have happ : t.app = s.app := congrArg Core.app (hcore "")
    exact ⟨by rw [happ, h]; simp [completionOf], by simp [completionOf]⟩
  · have hrev : t.app.identityRevision = (t.core c.chat).app.identityRevision := rfl
    rcases identityRevision_effect heffect with ⟨⟨w, hobs⟩, hbump⟩ | ⟨hobs, hsame⟩
    · rw [completionOf_of_observe hobs, hrev, hbump]
      refine ⟨?_, fun p hp => List.mem_singleton.mp hp ▸ hissued.1⟩
      rw [bump, counter, Option.getD_some]
      change Decimal.inc (counter s.app.identityRevision) = _
      rw [h, Decimal.inc_repr, List.length_append, List.length_singleton]
    · rw [completionOf_eq_nil hobs, hrev, hsame, List.append_nil]
      exact ⟨h, by simp⟩

/-! ## Calls between two awaits -/

/-- What a call of `accept` knows: the revision of its snapshot is not ahead of
the completions, and as long as it has found no marker, its event was not
completed before the snapshot in any chat it has looked up. -/
def CallSound (chats : List String) (completions : List (String × String))
    (call : AcceptCall Fp) : Prop :=
  match call.pc with
  | .lookup snapshot rest completed since =>
    ∃ m looked, snapshot.identityRevision = m.repr ∧ m ≤ since.completions ∧
      since.completions ≤ completions.length ∧ chats = looked ++ rest ∧
      (completed = false → ∀ chat ∈ looked, (chat, call.event.eventId) ∉ completions.take m)
  | .read snapshot rest _ =>
    ∃ m looked, snapshot.identityRevision = m.repr ∧ m ≤ completions.length ∧
      chats = looked ++ rest
  | .submit snapshot completed =>
    ∃ m, snapshot.identityRevision = m.repr ∧ m ≤ completions.length ∧
      (completed = false → ∀ chat ∈ chats, (chat, call.event.eventId) ∉ completions.take m)
  | _ => True

omit [DecidableEq Fp] in
/-- Later completions do not touch what a call knows. -/
theorem CallSound.append {completions : List (String × String)} {call : AcceptCall Fp}
    (h : CallSound chats completions call) (more : List (String × String)) :
    CallSound chats (completions ++ more) call := by
  obtain ⟨event, n, pc⟩ := call
  cases pc with
  | lookup snapshot rest completed since =>
    obtain ⟨m, looked, hm, hle, hsince, hchats, habsent⟩ := h
    refine ⟨m, looked, hm, hle, ?_, hchats, ?_⟩
    · rw [List.length_append]
      exact le_trans hsince (Nat.le_add_right _ _)
    · rwa [List.take_append_of_le_length (le_trans hle hsince)]
  | read snapshot rest proof =>
    obtain ⟨m, looked, hm, hle, hchats⟩ := h
    refine ⟨m, looked, hm, ?_, hchats⟩
    rw [List.length_append]
    exact le_trans hle (Nat.le_add_right _ _)
  | submit snapshot completed =>
    obtain ⟨m, hm, hle, habsent⟩ := h
    refine ⟨m, hm, ?_, ?_⟩
    · rw [List.length_append]
      exact le_trans hle (Nat.le_add_right _ _)
    · rwa [List.take_append_of_le_length hle]
  | snapshot | flush | done => trivial

/-! ## The system refines the ledger -/

/-- The system is coherent, in the state `a` of the ledger, and every call
knows what it should. -/
structure Tracked (fingerprint : NotificationV2 → Fp) (chats : List String) (s : System Fp)
    (a : Ledger.State String String Fp) : Prop where
  coherent : s.store.Coherent fingerprint
  shows : Shows s.store (fun id => ∃ chat, (chat, id) ∈ s.completions) a
  counted : counter s.store.app.identityRevision = s.completions.length.repr
  configured : ∀ p ∈ s.completions, p.1 ∈ chats
  calls : ∀ i call, s.calls i = some call → CallSound chats s.completions call

omit [DecidableEq Fp] in
theorem empty_tracked (time : Nat) :
    Tracked fingerprint chats (System.empty time : System Fp) .empty where
  coherent := empty_coherent fingerprint time
  shows := by simpa [System.empty] using empty_shows time
  counted := by
    simp only [System.empty, Store.empty, AppHash.empty, counter, Option.getD_none,
      List.length_nil]
    rfl
  configured p hp := nomatch hp
  calls i call h := nomatch h

variable {s t : System Fp} {l : Label Fp} {a : Ledger.State String String Fp}

omit [DecidableEq Fp] in
/-- A call that moves without the store leaves the rest tracked. -/
theorem Tracked.setCall (h : Tracked fingerprint chats s a) (i : Nat) {call : AcceptCall Fp}
    (hcall : CallSound chats s.completions call) : Tracked fingerprint chats (s.setCall i call) a where
  coherent := h.coherent
  shows := h.shows
  counted := h.counted
  configured := h.configured
  calls j other hother := by
    by_cases hj : j = i
    · subst hj
      rw [System.setCall_self] at hother
      exact Option.some.inj hother ▸ hcall
    · rw [System.setCall_of_ne _ _ hj] at hother
      exact h.calls j other hother

/-- A step of the store keeps the system tracked, if what it accepts was not
completed before. -/
theorem store_tracked (h : Tracked fingerprint chats s a) {u : Store Fp}
    (hstep : Store.Step chats fingerprint s.store l u)
    (hfresh : ∀ chat item, Label.entry? fingerprint l = some (.submit chat item) →
      ∀ other, (other, item.key) ∉ s.completions) :
    Trace.Simulates Ledger.Step (Tracked fingerprint chats
        { s with store := u, completions := s.completions ++ completionOf fingerprint l }) a
      (Label.entry? fingerprint l) := by
  obtain ⟨hcounted, hconfigured⟩ := identityRevision_step hstep h.counted
  have hrefines := store_refines h.coherent h.shows hstep fun chat item hentry ⟨other, hmem⟩ =>
    hfresh chat item hentry other hmem
  have htracked : ∀ b, Shows u (fun id => ∃ chat, (chat, id) ∈
      s.completions ++ completionOf fingerprint l) b → Tracked fingerprint chats
        { s with store := u, completions := s.completions ++ completionOf fingerprint l } b :=
    fun b hb =>
      { coherent := step_coherent h.coherent hstep
        shows := hb
        counted := hcounted
        configured := fun p hp => (List.mem_append.mp hp).elim (h.configured p) (hconfigured p)
        calls := fun i call hcall => (h.calls i call hcall).append _ }
  have hcompleted : (fun id => (∃ chat, (chat, id) ∈ s.completions) ∨
      Label.completes fingerprint l id) =
        fun id => ∃ chat, (chat, id) ∈ s.completions ++ completionOf fingerprint l := by
    funext id
    simp only [List.mem_append, exists_or, mem_completionOf]
  rw [hcompleted] at hrefines
  cases hentry : Label.entry? fingerprint l with
  | none =>
    rw [hentry] at hrefines
    exact htracked a hrefines
  | some o =>
    rw [hentry] at hrefines
    obtain ⟨b, hb, hshows⟩ := hrefines
    exact ⟨b, hb, htracked b hshows⟩

/-- A step of the store in which nothing is completed and nothing accepted. -/
theorem quiet_tracked (h : Tracked fingerprint chats s a) {u : Store Fp}
    (hstep : Store.Step chats fingerprint s.store l u)
    (hentry : Label.entry? fingerprint l = none) :
    Tracked fingerprint chats { s with store := u } a := by
  have htracked := store_tracked h hstep fun chat item heq => by rw [hentry] at heq; cases heq
  have hnil : completionOf fingerprint l = [] := by
    refine List.eq_nil_iff_forall_not_mem.mpr ?_
    rintro ⟨chat, id⟩ hmem
    obtain ⟨chat', fp, hdeliver⟩ := mem_completionOf.mp ⟨chat, hmem⟩
    rw [hentry] at hdeliver
    cases hdeliver
  rwa [hentry, hnil, List.append_nil] at htracked

/-- The revision in the reply of `snapshot` is the current one. -/
theorem snapshot_reply {u : Store Fp} {chat revision cursor identityRevision : String}
    {clk : Clock} {s : Store Fp}
    (hstep : Store.Step chats fingerprint s
      (some (⟨chat, .snapshot, clk⟩, .revisions revision cursor identityRevision)) u) :
    identityRevision = counter s.app.identityRevision := by
  cases hstep with
  | call _ _ _ hrun => cases hrun; rfl

/-- The script of `accept` accepts only under the revision of its snapshot, and
only if the caller has found no marker. -/
theorem accepted_inv {clk : Clock} {k : Keys Fp} {revision identityRevision : String}
    {event : NotificationV2} {fp : Fp} {completed : Bool} {r : Reply Fp} {d : Core Fp}
    {chat : String} {item : Ledger.Item String Fp}
    (heffect : Effect fingerprint clk k
      (.accept revision event fp completed identityRevision) r d)
    (hentry : Label.entry? fingerprint (some (⟨chat, .accept revision event fp completed
      identityRevision, clk⟩, r)) = some (.submit chat item)) :
    item = ⟨event.eventId, fp, event.chatSequence⟩ ∧ completed = false ∧
      counter k.app.identityRevision = identityRevision := by
  cases effect_viewed heffect with
  | quiet hobs =>
    cases ho : observe fingerprint (.accept revision event fp completed identityRevision) r with
    | none => simp [Label.entry?, ho] at hentry
    | some o =>
      rw [Label.entry?_of_observe ho, hobs chat o ho] at hentry
      cases hentry
  | accepted hop hobs hidRev =>
    cases hop
    rw [Label.entry?_of_observe hobs] at hentry
    cases hentry
    exact ⟨rfl, rfl, hidRev⟩
  | begun hobs =>
    rw [Label.entry?_of_observe hobs] at hentry
    cases hentry
  | completed hobs =>
    rw [Label.entry?_of_observe hobs] at hentry
    cases hentry

omit [DecidableEq Fp] in
/-- Only the script of `accept` submits, on its own chat. -/
theorem chat_of_submit {c : Call Fp} {r : Reply Fp} {chat : String} {item : Ledger.Item String Fp}
    (hentry : Label.entry? fingerprint (some (c, r)) = some (.submit chat item)) :
    chat = c.chat := by
  cases ho : observe fingerprint c.op r with
  | none => simp [Label.entry?, ho] at hentry
  | some o =>
    rw [Label.entry?_of_observe ho] at hentry
    cases o <;> cases hentry
    rfl

theorem accepts_of_submit {c : Call Fp} {r : Reply Fp} {k : Keys Fp} {d : Core Fp} {chat : String}
    {item : Ledger.Item String Fp} (heffect : Effect fingerprint c.clk k c.op r d)
    (hentry : Label.entry? fingerprint (some (c, r)) = some (.submit chat item)) :
    c.op.Accepts := by
  cases effect_viewed heffect with
  | quiet hobs =>
    cases ho : observe fingerprint c.op r with
    | none => simp [Label.entry?, ho] at hentry
    | some o =>
      rw [Label.entry?_of_observe ho, hobs c.chat o ho] at hentry
      cases hentry
  | accepted hop =>
    rw [hop]
    trivial
  | begun hobs =>
    rw [Label.entry?_of_observe hobs] at hentry
    cases hentry
  | completed hobs =>
    rw [Label.entry?_of_observe hobs] at hentry
    cases hentry

/-- One step of the system is a stutter or one step of the ledger. -/
theorem system_refines (h : Tracked fingerprint chats s a)
    (hstep : System.Step .promised chats fingerprint s l t) :
    Trace.Simulates Ledger.Step (Tracked fingerprint chats t) a (Label.entry? fingerprint l) := by
  cases hstep with
  | client hstore hop =>
    refine store_tracked h hstore fun chat item hentry => ?_
    -- a client that is not `accept` makes nothing active
    obtain ⟨-, ⟨rfl, -⟩ | ⟨c, r, rfl, -, -, -, heffect, -⟩⟩ := hstore.cases_on_core
    · cases hentry
    · exact absurd (accepts_of_submit heffect hentry) (hop c r rfl).1
  | append m => exact { h with }
  | start event => exact h.setCall _ trivial
  | @snapshot i n event clk u revision cursor identityRevision hcall hattempt hstore =>
    have hquiet := quiet_tracked h hstore rfl
    refine hquiet.setCall i ⟨s.completions.length, [], ?_, le_refl _, le_refl _, rfl, by simp⟩
    rw [snapshot_reply hstore, h.counted]
  | @absent i n event snapshot candidate rest completed since hcall habsent =>
    refine h.setCall i ?_
    obtain ⟨m, looked, hm, hle, hsince, hchats, hlooked⟩ := h.calls i _ hcall
    refine ⟨m, looked ++ [candidate], hm, le_trans hle hsince, le_refl _, by simp [hchats], ?_⟩
    intro hcompleted chat hchat
    rcases List.mem_append.mp hchat with hchat | hchat
    · exact hlooked hcompleted chat hchat
    · rw [List.mem_singleton.mp hchat]
      exact fun hmem => habsent (List.take_subset_take_left _ hle hmem)
  | foreign => exact h.setCall _ trivial
  | @own i n event snapshot candidate rest completed since m hcall =>
    refine h.setCall i ?_
    obtain ⟨m, looked, hm, hle, hsince, hchats, -⟩ := h.calls i _ hcall
    exact ⟨m, looked ++ [candidate], hm, le_trans hle hsince, by simp [hchats]⟩
  | @read i n event snapshot rest m clk u cursor pause gap hcall hstore =>
    have hquiet := quiet_tracked h hstore rfl
    obtain ⟨m, looked, hm, hle, hchats⟩ := h.calls i _ hcall
    exact hquiet.setCall i ⟨m, looked, hm, hle, le_refl _, hchats, nofun⟩
  | @looked i n event snapshot completed since hcall =>
    refine h.setCall i ?_
    obtain ⟨m, looked, hm, hle, hsince, hchats, hlooked⟩ := h.calls i _ hcall
    rw [List.append_nil] at hchats
    exact ⟨m, hm, le_trans hle hsince, hchats ▸ hlooked⟩
  | @submit i n event snapshot completed clk u r hcall hstore =>
    obtain ⟨m, hm, hle, habsent⟩ := h.calls i _ hcall
    have hafter : ∀ {b}, Tracked fingerprint chats { s with store := u } b →
        Tracked fingerprint chats
          (System.setCall { s with store := u } i (afterAccept event n r)) b := by
      intro b hb
      refine hb.setCall i ?_
      cases r <;> exact trivial
    have hnil : completionOf fingerprint (some (⟨event.canonicalChatJid,
        .accept snapshot.revision event (fingerprint event) completed snapshot.identityRevision,
        clk⟩, r)) = [] := completionOf_eq_nil fun w => by cases r <;> nofun
    have htracked := store_tracked h hstore fun chat item hentry other hother => by
      obtain ⟨-, ⟨hnone, -⟩ | ⟨c, r, heq, -, -, -, heffect, -⟩⟩ := hstore.cases_on_core
      · cases hnone
      cases heq
      obtain rfl : chat = event.canonicalChatJid := chat_of_submit hentry
      obtain ⟨rfl, hcompleted, hrevision⟩ := accepted_inv heffect hentry
      -- nothing was completed since the snapshot, so the lookups speak for now
      have hall : m = s.completions.length :=
        Decimal.repr_injective (hm.symm.trans (hrevision.symm.trans h.counted))
      have hnever := habsent hcompleted other (h.configured _ hother)
      rw [hall, List.take_length] at hnever
      exact hnever hother
    rw [hnil, List.append_nil] at htracked
    cases hentry : Label.entry? fingerprint (some (⟨event.canonicalChatJid,
        .accept snapshot.revision event (fingerprint event) completed snapshot.identityRevision,
        clk⟩, r)) with
    | none =>
      rw [hentry] at htracked
      exact hafter htracked
    | some o =>
      rw [hentry] at htracked
      obtain ⟨b, hb, hb'⟩ := htracked
      exact ⟨b, hb, hafter hb'⟩
  | flush => exact h.setCall _ trivial
  | fail => exact h.setCall _ trivial

/-- The log of a run is one of the ledger, in the state that the system is in. -/
theorem run_tracked {time : Nat} {es : List (Label Fp)}
    (h : Exec (System.Step .promised chats fingerprint) (System.empty time) es t) :
    ∃ b, Exec Ledger.Step .empty (ledger fingerprint es) b ∧ Tracked fingerprint chats t b :=
  h.refine (empty_tracked time) fun _ _ _ _ htracked hstep => system_refines htracked hstep

/-- The log of every run is lawful. -/
theorem system_lawful {time : Nat} {es : List (Label Fp)}
    (h : Exec (System.Step .promised chats fingerprint) (System.empty time) es t) :
    Ledger.Lawful (ledger fingerprint es) := by
  obtain ⟨b, hrun, -⟩ := run_tracked h
  exact Ledger.exec_lawful hrun

/-! ## From the ledger back to the calls -/

/-- The call is a completion on this chat. -/
def Observation.completedOn (chat : String) : String × Observation Fp → Bool
  | (other, .completed _) => other = chat
  | _ => false

/-- How many events of the chat the calls complete. -/
def completions (chat : String) (log : List (String × Observation Fp)) : Nat :=
  log.countP (Observation.completedOn chat)

omit [DecidableEq Fp] in
theorem ledger_eq (es : List (Label Fp)) :
    ledger fingerprint es = (observed fingerprint es).filterMap Observation.entry? := by
  rw [ledger, observed, List.filterMap_filterMap]
  rfl

omit [DecidableEq Fp] in
theorem ledger_split {es : List (Label Fp)} {pre post : List (String × Observation Fp)}
    {o : String × Observation Fp} {entry : Ledger.Entry String String Fp}
    (h : observed fingerprint es = pre ++ o :: post) (hentry : Observation.entry? o = some entry) :
    ledger fingerprint es =
      pre.filterMap Observation.entry? ++ entry :: post.filterMap Observation.entry? := by
  rw [ledger_eq, h, List.filterMap_append, List.filterMap_cons_some hentry]

omit [DecidableEq Fp] in
theorem deliveries_filterMap (chat : String) (log : List (String × Observation Fp)) :
    Ledger.deliveries chat (log.filterMap Observation.entry?) = completions chat log := by
  induction log with
  | nil => rfl
  | cons o log ih =>
    obtain ⟨other, o⟩ := o
    rw [completions, List.countP_cons, ← completions, ← ih]
    cases o <;> simp [List.filterMap_cons, Observation.entry?, Observation.completedOn, Ledger.deliveries,
      Ledger.Entry.deliversOn, List.countP_cons]

omit [DecidableEq Fp] in
theorem mem_submitted {log : List (String × Observation Fp)} {chat : String}
    {item : Ledger.Item String Fp}
    (h : Ledger.Entry.submit chat item ∈ log.filterMap Observation.entry?) :
    ∃ event fp, (chat, .accepted event fp) ∈ log ∧
      item = ⟨event.eventId, fp, event.chatSequence⟩ := by
  obtain ⟨⟨other, o⟩, hmem, hentry⟩ := List.mem_filterMap.mp h
  cases o <;> cases hentry
  exact ⟨_, _, hmem, rfl⟩

/-- In every run, each completion of a chat is of the event with the next
sequence of that chat, which was accepted there before under the same digest,
and no event id is completed twice. -/
theorem completions_in_order {time : Nat} {es : List (Label Fp)}
    (h : Exec (System.Step .promised chats fingerprint) (System.empty time) es t) :
    ∀ pre chat w post, observed fingerprint es = pre ++ (chat, .completed w) :: post →
      (∃ event, (chat, .accepted event w.fingerprint) ∈ pre ∧ event.eventId = w.eventId ∧
        event.chatSequence = completions chat pre + 1) ∧
      ∀ other v, (other, .completed v) ∈ pre → v.eventId ≠ w.eventId := by
  intro pre chat w post hsplit
  have hlog := ledger_split hsplit rfl
  have hlawful := system_lawful h
  constructor
  · obtain ⟨event, fp, hmem, hitem⟩ := mem_submitted (hlawful.order _ _ _ _ _ hlog)
    rw [Ledger.Item.mk.injEq, deliveries_filterMap] at hitem
    obtain ⟨hid, rfl, hrank⟩ := hitem
    exact ⟨event, hmem, hid.symm, hrank.symm⟩
  · intro other v hmem heq
    refine hlawful.once _ _ _ _ _ hlog other v.fingerprint ?_
    exact List.mem_filterMap.mpr ⟨_, hmem, by rw [← heq]; rfl⟩

/-! ## Markers before completions -/

/-- Every one of the completions has a marker. -/
def Covered (completions : List (String × String)) (markers : List (CompletionProof Fp)) : Prop :=
  ∀ p ∈ completions, ∃ m ∈ markers, m.canonicalChatId = p.1 ∧ m.eventId = p.2

/-- Completions are covered by durable markers, now and when a lookup began. -/
structure MarkersFirst (s : System Fp) : Prop where
  covered : Covered s.completions s.markers
  lookups : ∀ i event n snapshot rest completed since,
    s.calls i = some ⟨event, n, .lookup snapshot rest completed since⟩ →
      since.completions ≤ s.completions.length ∧ since.markers ≤ s.markers.length ∧
        Covered (s.completions.take since.completions) (s.markers.take since.markers)

omit [DecidableEq Fp] in
/-- Moving a call keeps the markers first, when a new lookup begins now. -/
theorem MarkersFirst.setCall (h : MarkersFirst s) (i : Nat) {call : AcceptCall Fp}
    (hnow : ∀ snapshot rest completed since, call.pc = .lookup snapshot rest completed since →
      since = s.since) : MarkersFirst (s.setCall i call) where
  covered := h.covered
  lookups j event n snapshot rest completed since hcall := by
    by_cases hj : j = i
    · subst hj
      simp only [System.setCall, Function.update_self, Option.some.injEq] at hcall
      obtain rfl := hnow snapshot rest completed since (by rw [hcall])
      refine ⟨le_refl _, le_refl _, ?_⟩
      simpa [System.setCall, System.since] using h.covered
    · rw [System.setCall_of_ne _ _ hj] at hcall
      exact h.lookups j event n snapshot rest completed since hcall

omit [DecidableEq Fp] in
/-- More completions, covered, and more markers keep the markers first. -/
theorem MarkersFirst.grow (h : MarkersFirst s) {u : Store Fp}
    {more : List (String × String)} {ms : List (CompletionProof Fp)}
    (hmore : Covered more (s.markers ++ ms)) :
    MarkersFirst { s with
      store := u, completions := s.completions ++ more, markers := s.markers ++ ms } where
  covered p hp := by
    rcases List.mem_append.mp hp with hp | hp
    · obtain ⟨m, hm, hfields⟩ := h.covered p hp
      exact ⟨m, List.mem_append_left _ hm, hfields⟩
    · exact hmore p hp
  lookups i event n snapshot rest completed since hcall := by
    obtain ⟨hc, hm, hcovered⟩ := h.lookups i event n snapshot rest completed since hcall
    refine ⟨le_trans hc (by simp), le_trans hm (by simp), ?_⟩
    rwa [List.take_append_of_le_length hc, List.take_append_of_le_length hm]

omit [DecidableEq Fp] in
theorem MarkersFirst.store (h : MarkersFirst s) (u : Store Fp) :
    MarkersFirst { s with store := u } := ⟨h.covered, h.lookups⟩

/-- Under the discipline of durable markers, lookups keep their promise. -/
theorem durable_step (h : MarkersFirst s)
    (hstep : System.Step .durable chats fingerprint s l t) :
    MarkersFirst t ∧ System.Step .promised chats fingerprint s l t := by
  cases hstep with
  | @client l u hstore hop =>
    have hmore : Covered (completionOf fingerprint l) (s.markers ++ []) := by
      intro p hp
      obtain ⟨-, ⟨rfl, -⟩ | ⟨c, r, rfl, -⟩⟩ := hstore.cases_on_core
      · cases hp
      · rw [List.append_nil]
        by_cases hobs : ∃ w, observe fingerprint c.op r = some (.completed w)
        · obtain ⟨w, hobs⟩ := hobs
          rw [completionOf_of_observe hobs] at hp
          obtain rfl := List.mem_singleton.mp hp
          obtain ⟨session, sends, hcomplete⟩ := complete_of_observe hobs
          have hready := (hop c r rfl).2
          simp only [Discipline.durable, hcomplete] at hready
          obtain ⟨m, hm, hverified, -⟩ := hready
          exact ⟨m, hm, hverified.1, hverified.2.2⟩
        · push Not at hobs
          rw [completionOf_eq_nil hobs] at hp
          cases hp
    refine ⟨?_, .client hstore fun c r heq => ⟨(hop c r heq).1, trivial⟩⟩
    have hgrow := h.grow (u := u) hmore
    rwa [List.append_nil] at hgrow
  | append m =>
    refine ⟨?_, .append m⟩
    have hgrow : MarkersFirst { s with
        completions := s.completions ++ [], markers := s.markers ++ [m] } :=
      h.grow fun p hp => nomatch hp
    rwa [List.append_nil] at hgrow
  | start event hidle hallowed => exact ⟨h.setCall _ nofun, .start event hidle hallowed⟩
  | snapshot hcall hattempt hstore =>
    exact ⟨(h.store _).setCall _ fun _ _ _ _ heq => (by cases heq; rfl),
      .snapshot hcall hattempt hstore⟩
  | @absent i n event snapshot candidate rest completed since hcall habsent =>
    refine ⟨h.setCall i fun _ _ _ _ heq => (by cases heq; rfl), .absent hcall fun hmem => ?_⟩
    obtain ⟨-, -, hcovered⟩ := h.lookups i _ _ _ _ _ _ hcall
    obtain ⟨m, hm, hfields⟩ := hcovered _ hmem
    exact habsent m hm hfields
  | foreign hcall hmarker hverified hforeign =>
    exact ⟨h.setCall _ nofun, .foreign hcall hmarker hverified hforeign⟩
  | own hcall hmarker hverified hown =>
    exact ⟨h.setCall _ nofun, .own hcall hmarker hverified hown⟩
  | read hcall hstore =>
    exact ⟨(h.store _).setCall _ fun _ _ _ _ heq => (by cases heq; rfl), .read hcall hstore⟩
  | looked hcall => exact ⟨h.setCall _ nofun, .looked hcall⟩
  | @submit i n event snapshot completed clk u r hcall hstore =>
    refine ⟨(h.store u).setCall i fun _ _ _ _ heq => ?_, .submit hcall hstore⟩
    cases r <;> cases heq
  | flush hcall => exact ⟨h.setCall _ nofun, .flush hcall⟩
  | fail hcall hpc => exact ⟨h.setCall _ nofun, .fail hcall hpc⟩

/-- A run under the discipline of durable markers is one under the promise. -/
theorem markers_complete {time : Nat} {es : List (Label Fp)}
    (h : Exec (System.Step .durable chats fingerprint) (System.empty time) es t) :
    Exec (System.Step .promised chats fingerprint) (System.empty time) es t :=
  h.mono (P := MarkersFirst) ⟨fun _ hp => (nomatch hp), fun _ _ _ _ _ _ _ hcall => (nomatch hcall)⟩
    fun _ _ _ hP hstep => durable_step hP hstep

/-! ### A turn and its redelivery -/

def sampleMarker : CompletionProof NotificationV2 where
  eventId := "event-1"
  eventFingerprint := sampleEvent
  canonicalChatId := "1@g.us"
  chatSequence := 1
  confirmedSends := []
  entryId := "entry-1"
  session := sampleSession

/-- The system after `sampleEvent` is accepted by call `0` and claimed. -/
def sampleClaimed : System NotificationV2 where
  store := ((Store.empty 0).drive (sampleCalls.take 4)).2
  markers := []
  completions := []
  calls := Function.update (fun _ => none) 0 (some ⟨sampleEvent, 0, .flush .accepted⟩)

theorem sampleClaimed_reached : ∃ es,
    Exec (System.Step .durable ["1@g.us"] id) (System.empty 0) es sampleClaimed := by
  have h₀ : Exec (System.Step .durable ["1@g.us"] id) (System.empty 0) [] (System.empty 0) := .nil
  have h₁ := exec_client h₀ "1@g.us" 1 (.init "1@g.us") ⟨List.mem_singleton.mpr rfl, trivial⟩
    (by decide) ⟨id, trivial⟩
  have h₂ := exec_client h₁ "1@g.us" 2 (.appAcquire "app" 100) ⟨List.mem_singleton.mpr rfl, trivial⟩
    (by decide) ⟨id, trivial⟩
  have h₃ := exec_accept sampleEvent h₂ 0 3 rfl (by decide)
    (fun u since hu m hm => absurd (hu ▸ List.mem_of_mem_take hm) List.not_mem_nil) rfl
  have h₄ := exec_client h₃ "1@g.us" 4 (.claim ⟨"app", "1", "worker", 50, 10⟩)
    ⟨List.mem_singleton.mpr rfl, trivial⟩ (by decide) ⟨id, trivial⟩
  exact ⟨_, h₄⟩

/-- The claimed event is completed after its marker. -/
theorem sampleTurn : ∃ es t,
    Exec (System.Step .durable ["1@g.us"] id) (System.empty 0) es t ∧
      ("1@g.us", .completed sampleWork) ∈ observed id es := by
  obtain ⟨es, h₁⟩ := sampleClaimed_reached
  have h₂ := exec_client h₁ "1@g.us" 5 (.bind sampleWork sampleSession)
    ⟨List.mem_singleton.mpr rfl, trivial⟩ (by decide) ⟨id, trivial⟩
  have h₃ := exec_client (h₂.snoc (.append sampleMarker)) "1@g.us" 6
    (.complete sampleWork sampleSession []) ⟨List.mem_singleton.mpr rfl, trivial⟩ (by decide)
    ⟨id, sampleMarker, List.mem_singleton.mpr rfl, ⟨rfl, rfl, rfl⟩, rfl, rfl, rfl⟩
  exact ⟨_, _, h₃, List.mem_filterMap.mpr
    ⟨_, List.mem_append_right _ (List.mem_singleton.mpr rfl), rfl⟩⟩

/-- The law at a run that completes an event. -/
theorem completions_in_order_of_sampleTurn : ∃ es,
    ("1@g.us", .completed sampleWork) ∈ observed id es ∧
      ∀ pre chat w post, observed id es = pre ++ (chat, .completed w) :: post →
        (∃ event, (chat, .accepted event w.fingerprint) ∈ pre ∧ event.eventId = w.eventId ∧
          event.chatSequence = completions chat pre + 1) ∧
        ∀ other v, (other, .completed v) ∈ pre → v.eventId ≠ w.eventId := by
  obtain ⟨es, t, h, hmem⟩ := sampleTurn
  exact ⟨es, hmem, completions_in_order (markers_complete h)⟩

end WhatsAppMcp.Controller.Redis
