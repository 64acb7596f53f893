import WhatsAppMcp.Controller.Redis.Delivery

/-!
# Intake beside completion

What the answers of `accept` say, for any number of calls beside marker appends
and completions.

A call that answers `duplicate` saw its event active when the script ran, or
found its marker on the way there.  What a call found stays true until it
answers: markers are never taken back, and a chat keeps the session it is bound
to.  `CallMarked` is this argument for a call between two of its awaits.

* `duplicate_step`: an answer `duplicate` is justified by the state before it.
* `accept_refused`: a script of `accept` that does not accept changes nothing.
* `completed_inactive`: a completed event is never active again.
-/

namespace WhatsAppMcp.Controller.Redis

open Trace (Exec)

variable {Fp : Type} [DecidableEq Fp] {fingerprint : NotificationV2 → Fp} {chats : List String}

/-! ## Justified duplicates -/

omit [DecidableEq Fp] in
/-- The event is active in its chat: same id, chat, sequence and digest. -/
def Store.Active (fingerprint : NotificationV2 → Fp) (s : Store Fp) (event : NotificationV2) : Prop :=
  ∃ e, (s.core event.canonicalChatJid).events.lookup event.eventId = some e ∧
    e.raw.eventId = event.eventId ∧ e.raw.canonicalChatJid = event.canonicalChatJid ∧
    e.raw.chatSequence = event.chatSequence ∧ fingerprint e.raw = fingerprint event

/-- A durable marker of the event is in the session its chat is bound to. -/
def System.Marked (fingerprint : NotificationV2 → Fp) (s : System Fp) (event : NotificationV2) :
    Prop :=
  ∃ m ∈ s.markers, VerifiedProof m event.canonicalChatJid event.eventId ∧
    OwnProof fingerprint m event.canonicalChatJid event ∧
    (s.store.core event.canonicalChatJid).session = some m.session

/-- What a call of `accept` has found so far. -/
def CallMarked (fingerprint : NotificationV2 → Fp) (s : System Fp) (call : AcceptCall Fp) : Prop :=
  match call.pc with
  | .lookup _ _ completed _ | .submit _ completed =>
    completed = true → s.Marked fingerprint call.event
  | .read _ _ m => m ∈ s.markers ∧
      VerifiedProof m call.event.canonicalChatJid call.event.eventId ∧
      OwnProof fingerprint m call.event.canonicalChatJid call.event
  | _ => True

/-- A chat keeps the session it is bound to. -/
theorem session_effect {clk : Clock} {k : Keys Fp} {op : Op Fp} {r : Reply Fp} {d : Core Fp}
    {session : SessionBinding} (heffect : Effect fingerprint clk k op r d)
    (hsession : k.state.session = some session) : d.session = some session := by
  cases heffect with
  | bound _ hold => rw [hold session hsession]
  | _ => exact hsession

theorem session_step {s t : Store Fp} {l : Label Fp} {chat : String} {session : SessionBinding}
    (hstep : Store.Step chats fingerprint s l t) (hsession : (s.core chat).session = some session) :
    (t.core chat).session = some session := by
  obtain ⟨-, ⟨-, hcore⟩ | ⟨c, r, -, -, -, -, heffect, hother⟩⟩ := hstep.cases_on_core
  · rw [hcore]
    exact hsession
  · by_cases hchat : chat = c.chat
    · subst hchat
      exact session_effect heffect hsession
    · rw [hother chat hchat]
      exact hsession

variable {s t : System Fp} {l : Label Fp}

/-- The markers grow and the store moves in the ways of its scripts. -/
structure System.Onward (s t : System Fp) : Prop where
  markers : ∀ m ∈ s.markers, m ∈ t.markers
  session : ∀ chat session, (s.store.core chat).session = some session →
    (t.store.core chat).session = some session

omit [DecidableEq Fp] in
theorem System.Onward.marked (h : s.Onward t) {event : NotificationV2}
    (hmarked : s.Marked fingerprint event) : t.Marked fingerprint event := by
  obtain ⟨m, hm, hverified, hown, hsession⟩ := hmarked
  exact ⟨m, h.markers m hm, hverified, hown, h.session _ _ hsession⟩

omit [DecidableEq Fp] in
theorem System.Onward.callMarked (h : s.Onward t) {call : AcceptCall Fp}
    (hcall : CallMarked fingerprint s call) : CallMarked fingerprint t call := by
  obtain ⟨event, n, pc⟩ := call
  cases pc with
  | lookup | submit => exact fun hcompleted => h.marked (hcall hcompleted)
  | read => exact ⟨h.markers _ hcall.1, hcall.2⟩
  | snapshot | flush | done => trivial

theorem onward_of_store {u : Store Fp} {completions : List (String × String)}
    (hstep : Store.Step chats fingerprint s.store l u) :
    s.Onward { s with store := u, completions := completions } :=
  ⟨fun _ h => h, fun _ _ h => session_step hstep h⟩

/-! ## What every call has found -/

/-- What every call has found is there. -/
def System.Marks (fingerprint : NotificationV2 → Fp) (s : System Fp) : Prop :=
  ∀ i call, s.calls i = some call → CallMarked fingerprint s call

omit [DecidableEq Fp] in
theorem System.Marks.onward (h : s.Marks fingerprint) (honward : s.Onward t)
    (hcalls : t.calls = s.calls) : t.Marks fingerprint := fun i call hcall =>
  honward.callMarked (h i call (hcalls ▸ hcall))

omit [DecidableEq Fp] in
theorem System.Marks.setCall (h : s.Marks fingerprint) (i : Nat) {call : AcceptCall Fp}
    (hcall : CallMarked fingerprint s call) : (s.setCall i call).Marks fingerprint := by
  have honward : s.Onward (s.setCall i call) := ⟨fun _ h => h, fun _ _ h => h⟩
  intro j other hother
  by_cases hj : j = i
  · subst hj
    rw [System.setCall_self] at hother
    exact honward.callMarked (Option.some.inj hother ▸ hcall)
  · rw [System.setCall_of_ne _ _ hj] at hother
    exact honward.callMarked (h j other hother)

/-- A reply is that of the script. -/
theorem Store.Step.ran {s u : Store Fp} {c : Call Fp} {r : Reply Fp}
    (hstep : Store.Step chats fingerprint s (some (c, r)) u) :
    ∃ k, c.op.run c.clk (s.keys c.chat) = (r, k) := by
  cases hstep with
  | call _ _ _ hrun => exact ⟨_, hrun⟩

/-- The session in the reply of `read` is that of the chat. -/
theorem read_reply {s u : Store Fp} {chat cursor : String} {session : Option SessionBinding}
    {pause : Option PauseReason} {gap : Option Nat} {clk : Clock}
    (hstep : Store.Step chats fingerprint s
      (some (⟨chat, .read, clk⟩, .chat cursor session pause gap)) u) :
    (s.core chat).session = session := by
  obtain ⟨k, hrun⟩ := hstep.ran
  cases hrun
  rfl

variable {D : Discipline Fp}

theorem marks_step (h : s.Marks fingerprint) (hstep : System.Step D chats fingerprint s l t) :
    t.Marks fingerprint := by
  cases hstep with
  | client hstore => exact h.onward (onward_of_store hstore) rfl
  | append m => exact h.onward ⟨fun _ => List.mem_append_left _, fun _ _ h => h⟩ rfl
  | start event => exact h.setCall _ trivial
  | snapshot hcall hattempt hstore =>
    exact (h.onward (onward_of_store hstore) rfl).setCall _ nofun
  | absent hcall =>
    have hfound := h _ _ hcall
    exact h.setCall _ hfound
  | foreign => exact h.setCall _ trivial
  | own hcall hmarker hverified hown =>
    obtain rfl := hown.1
    exact h.setCall _ ⟨hmarker, hverified, hown⟩
  | read hcall hstore =>
    obtain ⟨hm, hverified, hown⟩ := h _ _ hcall
    have honward : s.Onward { s with store := _ } := onward_of_store hstore
    exact (h.onward honward rfl).setCall _ fun _ =>
      ⟨_, hm, hverified, hown, honward.session _ _ (read_reply hstore)⟩
  | looked hcall =>
    have hfound := h _ _ hcall
    exact h.setCall _ hfound
  | @submit i n event snapshot completed clk u r hcall hstore =>
    refine (h.onward (onward_of_store hstore) rfl).setCall _ ?_
    cases r <;> exact trivial
  | flush => exact h.setCall _ trivial
  | fail => exact h.setCall _ trivial

/-! ## An answer and the state before it -/

/-- The script of `accept` answers `duplicate` for a caller that found the
marker, and for an event that is there. -/
theorem duplicate_inv {clk : Clock} {k k' : Keys Fp} {revision identityRevision : String}
    {event : NotificationV2} {fp : Fp} {completed : Bool}
    (h : accept clk k revision event fp completed identityRevision = (.duplicate, k')) :
    completed = true ∨ ∃ e, k.events.lookup event.eventId = some e ∧ e.fp = fp ∧
      e.seq = event.chatSequence.repr := by
  unfold accept at h
  simp only at h
  split at h
  · cases h
  split at h
  · cases h
  split at h
  · next e he =>
    split at h
    · cases h
    · next hsame =>
      push Not at hsame
      exact Or.inr ⟨e, he, hsame⟩
  split at h
  · cases h
  split at h
  · next hcompleted => exact Or.inl hcompleted
  split at h <;> cases h

omit [DecidableEq Fp] in
/-- An answer that a moved call does not have is that of another call. -/
theorem call_of_answer {i j n : Nat} {event : NotificationV2} {pc : AcceptPc Fp}
    {call : AcceptCall Fp} {answer : Acceptance}
    (hcall : (s.setCall j call).calls i = some ⟨event, n, pc⟩)
    (hanswer : pc.answer? = some answer) (hne : call.pc.answer? ≠ some answer) :
    s.calls i = some ⟨event, n, pc⟩ := by
  by_cases hi : i = j
  · subst hi
    rw [System.setCall_self] at hcall
    obtain rfl := Option.some.inj hcall
    exact absurd hanswer hne
  · rwa [System.setCall_of_ne _ _ hi] at hcall

omit [DecidableEq Fp] in
@[simp] theorem afterAccept_event (event : NotificationV2) (n : Nat) (r : Reply Fp) :
    (afterAccept event n r).event = event := by
  cases r <;> rfl

/-- The event of a script of `accept` that accepts is among the events after it. -/
theorem accepted_effect {clk : Clock} {k : Keys Fp} {d : Core Fp} {event : NotificationV2} {fp : Fp}
    {revision identityRevision : String} {completed : Bool}
    (heffect : Effect fingerprint clk k
      (.accept revision event fp completed identityRevision) .accepted d) :
    ∃ e, d.events.lookup event.eventId = some e ∧ e.raw = event := by
  cases heffect with
  | quiet hobs => cases hobs
  | accepted => exact ⟨_, AList.lookup_insert _, rfl⟩
  | granted _ _ hobs => cases hobs

theorem active_of_accepted {s t : Store Fp} {event : NotificationV2} {clk : Clock}
    {revision identityRevision : String} {completed : Bool}
    (hstep : Store.Step chats fingerprint s (some (⟨event.canonicalChatJid,
      .accept revision event (fingerprint event) completed identityRevision, clk⟩, .accepted)) t) :
    t.Active fingerprint event := by
  obtain ⟨-, ⟨hnone, -⟩ | ⟨c, r, heq, -, -, -, heffect, -⟩⟩ := hstep.cases_on_core
  · cases hnone
  · cases heq
    obtain ⟨e, he, hraw⟩ := accepted_effect heffect
    exact ⟨e, he, by rw [hraw], by rw [hraw], by rw [hraw], by rw [hraw]⟩

/-- A call that answers `accepted` or `duplicate` has answered it before, or its script has
run in this step. -/
theorem answer_step (hstep : System.Step D chats fingerprint s l t) {i n : Nat}
    {event : NotificationV2} {pc : AcceptPc Fp} {answer : Acceptance}
    (hcall : t.calls i = some ⟨event, n, pc⟩) (hanswer : pc.answer? = some answer)
    (hkind : answer = .accepted ∨ answer = .duplicate) :
    (∃ n' pc', s.calls i = some ⟨event, n', pc'⟩ ∧ pc'.answer? = some answer) ∨
      ∃ m snapshot completed clk r, s.calls i = some ⟨event, m, .submit snapshot completed⟩ ∧
        Store.Step chats fingerprint s.store
          (some (⟨event.canonicalChatJid, .accept snapshot.revision event (fingerprint event)
            completed snapshot.identityRevision, clk⟩, r)) t.store ∧
        (afterAccept event m r).pc.answer? = some answer := by
  cases hstep with
  | client => exact Or.inl ⟨n, pc, hcall, hanswer⟩
  | append => exact Or.inl ⟨n, pc, hcall, hanswer⟩
  | start | snapshot | absent | own | read | looked =>
    exact Or.inl ⟨n, pc, call_of_answer hcall hanswer nofun, hanswer⟩
  | foreign | fail =>
    refine Or.inl ⟨n, pc, call_of_answer hcall hanswer ?_, hanswer⟩
    rcases hkind with rfl | rfl <;> nofun
  | @flush j m ev answer' hbefore =>
    by_cases hi : i = j
    · subst hi
      rw [System.setCall_self] at hcall
      obtain ⟨rfl, rfl, rfl⟩ := AcceptCall.mk.inj (Option.some.inj hcall)
      exact Or.inl ⟨_, _, hbefore, hanswer⟩
    · rw [System.setCall_of_ne _ _ hi] at hcall
      exact Or.inl ⟨n, pc, hcall, hanswer⟩
  | @submit j m ev snapshot completed clk u r hbefore hstore =>
    by_cases hi : i = j
    · subst hi
      rw [System.setCall_self] at hcall
      have hmoved : afterAccept ev m r = ⟨event, n, pc⟩ := Option.some.inj hcall
      obtain rfl : ev = event := by
        rw [← afterAccept_event ev m r, hmoved]
      exact Or.inr ⟨m, snapshot, completed, clk, r, hbefore, hstore, by rw [hmoved, hanswer]⟩
    · rw [System.setCall_of_ne _ _ hi] at hcall
      exact Or.inl ⟨n, pc, hcall, hanswer⟩

/-- A call that answers `duplicate` has answered it before, or its event is
active or marked now. -/
theorem duplicate_step (hcoherent : s.store.Coherent fingerprint) (h : s.Marks fingerprint)
    (hstep : System.Step D chats fingerprint s l t) {i n : Nat} {event : NotificationV2}
    {pc : AcceptPc Fp} (hcall : t.calls i = some ⟨event, n, pc⟩)
    (hanswer : pc.answer? = some .duplicate) :
    ∃ n' pc', s.calls i = some ⟨event, n', pc'⟩ ∧
      (pc'.answer? = some .duplicate ∨
        pc'.answer? = none ∧ (s.store.Active fingerprint event ∨ s.Marked fingerprint event)) := by
  obtain ⟨n', pc', hbefore, hdup⟩ | ⟨m, snapshot, completed, clk, r, hbefore, hstore, hreply⟩ :=
    answer_step hstep hcall hanswer (Or.inr rfl)
  · exact ⟨n', pc', hbefore, Or.inl hdup⟩
  · refine ⟨_, _, hbefore, Or.inr ⟨rfl, ?_⟩⟩
    obtain rfl : r = .duplicate := by cases r <;> simp_all [afterAccept, AcceptPc.answer?]
    obtain ⟨k, hrun⟩ := hstore.ran
    rcases duplicate_inv hrun with hcompleted | ⟨e, he, hfp, hseq⟩
    · exact Or.inr (h _ _ hbefore hcompleted)
    · obtain ⟨hid, hchat, hseq', hfp'⟩ := (hcoherent.chat _).raw _ e he
      exact Or.inl ⟨e, he, hid, hchat, Decimal.repr_injective (hseq'.symm.trans hseq),
        hfp'.symm.trans hfp⟩

/-- A call that answers `accepted` has answered it before, or its event is active from
this step on. -/
theorem accepted_step (hstep : System.Step D chats fingerprint s l t) {i n : Nat}
    {event : NotificationV2} {pc : AcceptPc Fp} (hcall : t.calls i = some ⟨event, n, pc⟩)
    (hanswer : pc.answer? = some .accepted) :
    (∃ n' pc', s.calls i = some ⟨event, n', pc'⟩ ∧ pc'.answer? = some .accepted) ∨
      t.store.Active fingerprint event := by
  obtain hbefore | ⟨m, snapshot, completed, clk, r, -, hstore, hreply⟩ :=
    answer_step hstep hcall hanswer (Or.inl rfl)
  · exact Or.inl hbefore
  · obtain rfl : r = .accepted := by cases r <;> simp_all [afterAccept, AcceptPc.answer?]
    exact Or.inr (active_of_accepted hstore)

/-! ## Runs -/

variable {time : Nat} {es : List (Label Fp)}

theorem run_marks (h : Exec (System.Step D chats fingerprint) (System.empty time) es t) :
    t.Marks fingerprint :=
  h.invariant (fun _ _ hcall => nomatch hcall) fun _ _ _ hmarks hstep => marks_step hmarks hstep

omit [DecidableEq Fp] in
/-- The call is one for this event, with this answer or none. -/
def System.Stands (s : System Fp) (i : Nat) (event : NotificationV2) (answer : Option Acceptance) :
    Prop :=
  ∃ n pc, s.calls i = some ⟨event, n, pc⟩ ∧ pc.answer? = answer

omit [DecidableEq Fp] in
theorem System.not_stands_empty {i : Nat} {event : NotificationV2} {answer : Option Acceptance} :
    ¬ (System.empty time : System Fp).Stands i event answer :=
  fun ⟨_, _, hnone, _⟩ => nomatch hnone

/-- The call is under way, and its event is active or marked. -/
def System.Justified (fingerprint : NotificationV2 → Fp) (s : System Fp) (i : Nat)
    (event : NotificationV2) : Prop :=
  s.Stands i event none ∧ (s.store.Active fingerprint event ∨ s.Marked fingerprint event)

/-- Every answer `duplicate` of a run is justified at a state in which the call
was under way. -/
theorem duplicate_run (h : Exec (System.Step D chats fingerprint) (System.empty time) es t)
    {i n : Nat} {event : NotificationV2} {pc : AcceptPc Fp}
    (hcall : t.calls i = some ⟨event, n, pc⟩) (hanswer : pc.answer? = some .duplicate) :
    ∃ es₁ es₂ u n' pc', es = es₁ ++ es₂ ∧
      Exec (System.Step D chats fingerprint) (System.empty time) es₁ u ∧
      Exec (System.Step D chats fingerprint) u es₂ t ∧
      u.calls i = some ⟨event, n', pc'⟩ ∧ pc'.answer? = none ∧
      (u.store.Active fingerprint event ∨ u.Marked fingerprint event) := by
  have hsteps : ∀ es s l t, Exec (System.Step D chats fingerprint) (System.empty time) es s →
      System.Step D chats fingerprint s l t → t.Stands i event (some .duplicate) →
      s.Stands i event (some .duplicate) ∨ s.Justified fingerprint i event ∨
        t.Justified fingerprint i event := by
    rintro es s l t run last ⟨n, pc, hcall, hanswer⟩
    obtain ⟨n', pc', hbefore, hdup | ⟨hnone, hjustified⟩⟩ :=
      duplicate_step (run_coherent (exec_store run)) (run_marks run) last hcall hanswer
    · exact Or.inl ⟨n', pc', hbefore, hdup⟩
    · exact Or.inr (Or.inl ⟨⟨n', pc', hbefore, hnone⟩, hjustified⟩)
  obtain ⟨es₁, es₂, u, heq, hfirst, hrest, ⟨n', pc', hu, hnone⟩, hjustified⟩ :=
    h.cause System.not_stands_empty hsteps ⟨n, pc, hcall, hanswer⟩
  exact ⟨es₁, es₂, u, n', pc', heq, hfirst, hrest, hu, hnone, hjustified⟩

/-- A script of `accept` that does not accept leaves the core. -/
theorem accept_refused {clk : Clock} {k : Keys Fp} {op : Op Fp} {r : Reply Fp} {d : Core Fp}
    (heffect : Effect fingerprint clk k op r d) (hop : op.Accepts) (hr : r ≠ .accepted) :
    d = k.core := by
  cases heffect with
  | quiet => rfl
  | accepted => exact absurd rfl hr
  | @granted op r _ _ _ _ _ hobs =>
    cases op with
    | accept => cases r <;> cases hobs
    | _ => cases hop
  | @released op hreleases =>
    cases op with
    | accept => cases hreleases
    | _ => cases hop
  | _ => cases hop

theorem refused_step {s t : Store Fp} {c : Call Fp} {r : Reply Fp}
    (hstep : Store.Step chats fingerprint s (some (c, r)) t) (hop : c.op.Accepts)
    (hr : r ≠ .accepted) (chat : String) : t.core chat = s.core chat := by
  obtain ⟨-, ⟨hnone, -⟩ | ⟨c', r', heq, -, -, -, heffect, hother⟩⟩ := hstep.cases_on_core
  · cases hnone
  cases heq
  have hcore := accept_refused heffect hop hr
  by_cases hchat : chat = c.chat
  · rw [hchat, hcore]
    rfl
  · rw [hother chat hchat, hcore]
    rfl

/-- A completed event is never active again. -/
theorem completed_inactive (h : Exec (System.Step .promised chats fingerprint) (System.empty time) es t)
    {other chat : String} {w : WorkArgs Fp} (hw : (other, .completed w) ∈ observed fingerprint es) :
    (t.store.core chat).events.lookup w.eventId = none := by
  obtain ⟨b, hrun, htracked⟩ := run_tracked h
  cases hlookup : (t.store.core chat).events.lookup w.eventId with
  | none => rfl
  | some e =>
    have hactive : b.active chat ⟨w.eventId, e.fp, e.raw.chatSequence⟩ :=
      (htracked.shows.active _ _).mpr ⟨e, hlookup, rfl, rfl⟩
    refine absurd ?_ (((Ledger.exec_history hrun).pending _ _ hactive).2 other w.fingerprint)
    rw [ledger_eq]
    exact List.mem_filterMap.mpr ⟨_, hw, rfl⟩

/-- In every run in which markers are durable before `complete`: an answer
`duplicate` is justified by an event active, or by a marker durable in the bound
session, at a state of the call; no id and no sequence of a chat is accepted
twice; a refused accept leaves the store; and a completed event is not active. -/
theorem accept_linearizable
    (h : Exec (System.Step .durable chats fingerprint) (System.empty time) es t) :
    (∀ i event n pc, t.calls i = some ⟨event, n, pc⟩ → pc.answer? = some .duplicate →
      ∃ es₁ es₂ u n' pc', es = es₁ ++ es₂ ∧
        Exec (System.Step .durable chats fingerprint) (System.empty time) es₁ u ∧
        Exec (System.Step .durable chats fingerprint) u es₂ t ∧
        u.calls i = some ⟨event, n', pc'⟩ ∧ pc'.answer? = none ∧
        (u.store.Active fingerprint event ∨ u.Marked fingerprint event)) ∧
    (∀ pre chat event fp post, observed fingerprint es = pre ++ (chat, .accepted event fp) :: post →
      ∀ other event' fp', (other, .accepted event' fp') ∈ pre →
        event'.eventId ≠ event.eventId ∧
          (other = chat → event'.chatSequence ≠ event.chatSequence)) ∧
    (∀ es₁ c r es₂, es = es₁ ++ some (c, r) :: es₂ → c.op.Accepts → r ≠ .accepted →
      ∃ u v, Exec (System.Step .durable chats fingerprint) (System.empty time) es₁ u ∧
        Exec (System.Step .durable chats fingerprint) v es₂ t ∧
        ∀ chat, v.store.core chat = u.store.core chat) ∧
    ∀ other w chat, (other, .completed w) ∈ observed fingerprint es →
      (t.store.core chat).events.lookup w.eventId = none := by
  refine ⟨fun i event n pc hcall hanswer => duplicate_run h hcall hanswer, ?_, ?_,
    fun other w chat hw => completed_inactive (markers_complete h) hw⟩
  · intro pre chat event fp post hsplit other event' fp' hmem
    have hlawful := system_lawful (markers_complete h)
    exact hlawful.fresh _ _ _ _ (ledger_split hsplit rfl) other _
      (List.mem_filterMap.mpr ⟨_, hmem, rfl⟩)
  · rintro es₁ c r es₂ rfl hop hr
    obtain ⟨u, v, hfirst, hstep, hrest⟩ := h.split_cons
    exact ⟨u, v, hfirst, hrest, refused_step hstep.store hop hr⟩

/-! ### A second delivery -/

/-- One event is accepted by call `0` and then by call `1`, which answers `duplicate`. -/
theorem sampleRetry : ∃ es t,
    Exec (System.Step .durable ["1@g.us"] id) (System.empty 0) es t ∧
      t.calls 1 = some ⟨sampleEvent, 0, .flush .duplicate⟩ := by
  have h₀ : Exec (System.Step .durable ["1@g.us"] id) (System.empty 0) [] (System.empty 0) := .nil
  have h₁ := exec_client h₀ "1@g.us" 1 (.init "1@g.us") ⟨List.mem_singleton.mpr rfl, trivial⟩
    (by decide) ⟨id, trivial⟩
  have h₂ := exec_accept sampleEvent h₁ 0 2 rfl (by decide)
    (fun u since hu m hm => absurd (hu ▸ List.mem_of_mem_take hm) List.not_mem_nil) rfl
  have h₃ := exec_accept sampleEvent h₂ 1 3 rfl (by decide)
    (fun u since hu m hm => absurd (hu ▸ List.mem_of_mem_take hm) List.not_mem_nil) rfl
  exact ⟨_, _, h₃, rfl⟩

/-- The second answer is justified by a state of the second call. -/
theorem accept_linearizable_of_sampleRetry : ∃ es₁ u n pc,
    Exec (System.Step .durable ["1@g.us"] id) (System.empty 0) es₁ u ∧
      u.calls 1 = some ⟨sampleEvent, n, pc⟩ ∧ pc.answer? = none ∧
      (u.store.Active id sampleEvent ∨ u.Marked id sampleEvent) := by
  obtain ⟨es, t, h, hcall⟩ := sampleRetry
  obtain ⟨es₁, -, u, n, pc, -, hrun, -, hu⟩ := (accept_linearizable h).1 1 _ _ _ hcall rfl
  exact ⟨es₁, u, n, pc, hrun, hu⟩

end WhatsAppMcp.Controller.Redis
