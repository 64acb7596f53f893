import WhatsAppMcp.Controller.Redis.Refinement

/-!
# `repository.accept` beside the store

`accept` of the repository reads the revisions, looks for a completion marker
of the event in every configured chat, and calls the script with what it found;
the script refuses with `retry` when a revision has moved in between, and the
call starts over, eight times at most.  The markers live in session files, so
the lookup is not part of any script.

`System` is the store, the durable markers, and any number of such calls, from
any number of processes, each between two of its awaits.  `System.Step` moves
one of them, or lets some client call another script, or makes a marker
durable.  A call may fail at any await.

Two things about the outside are a parameter, `Discipline`: when a lookup may
come back with nothing, and when a client may call `complete`.

* `Discipline.promised`: a lookup finds the marker of an event that was
  completed before the lookup began; nothing is asked of `complete`.
* `Discipline.durable`: a lookup finds every marker that was durable when it
  began; `complete` is called, as `repository.complete` does, with a marker
  that is durable.
-/

namespace WhatsAppMcp.Controller.Redis

open Trace (Exec)

variable {Fp : Type}

/-! ## Calls of `accept` -/

/-- `Acceptance`. -/
inductive Acceptance where
  | accepted
  | duplicate
  | conflict
  | unavailable
  deriving DecidableEq, Repr

/-- `snapshot[0]` and `snapshot[2]`. -/
structure Snapshot where
  revision : String
  identityRevision : String
  deriving DecidableEq, Repr

/-- How many completions and markers there were when a lookup began. -/
structure Since where
  completions : Nat
  markers : Nat

/-- Where a call of `accept` stands.  `lookup` waits for `findEvent` on the
first chat of `rest`, `read` for the session of its own chat after a marker was
found there, `flush` for the durability barrier after its answer is settled. -/
inductive AcceptPc (Fp : Type) where
  | snapshot
  | lookup (snapshot : Snapshot) (rest : List String) (completed : Bool) (since : Since)
  | read (snapshot : Snapshot) (rest : List String) (proof : CompletionProof Fp)
  | submit (snapshot : Snapshot) (completed : Bool)
  | flush (answer : Acceptance)
  | done (answer : Acceptance)

/-- A call of `accept` for one event, in its `attempt`-th round. -/
structure AcceptCall (Fp : Type) where
  event : NotificationV2
  attempt : Nat
  pc : AcceptPc Fp

/-- The answer of a call, when it is settled. -/
def AcceptPc.answer? : AcceptPc Fp → Option Acceptance
  | .flush answer | .done answer => some answer
  | _ => none

/-- `verifiedProof`: the marker is of this chat and this event. -/
def VerifiedProof (m : CompletionProof Fp) (chat id : String) : Prop :=
  m.canonicalChatId = chat ∧ m.session.canonicalChatId = chat ∧ m.eventId = id

/-- The marker found in `candidate` is of exactly this event. -/
def OwnProof (fingerprint : NotificationV2 → Fp) (m : CompletionProof Fp) (candidate : String)
    (event : NotificationV2) : Prop :=
  candidate = event.canonicalChatJid ∧ m.chatSequence = event.chatSequence ∧
    m.eventFingerprint = fingerprint event

/-- Where a call goes with the reply of the script. -/
def afterAccept (event : NotificationV2) (attempt : Nat) : Reply Fp → AcceptCall Fp
  | .retry => ⟨event, attempt + 1, .snapshot⟩
  | .accepted => ⟨event, attempt, .flush .accepted⟩
  | .duplicate => ⟨event, attempt, .flush .duplicate⟩
  | .conflict => ⟨event, attempt, .flush .conflict⟩
  | _ => ⟨event, attempt, .done .unavailable⟩

/-! ## The system -/

/-- The store, the durable markers, the completions so far with their chats,
and the calls of `accept`. -/
structure System (Fp : Type) where
  store : Store Fp
  markers : List (CompletionProof Fp)
  completions : List (String × String)
  calls : Nat → Option (AcceptCall Fp)

/-- Nothing stored, nothing called. -/
def System.empty (time : Nat) : System Fp := ⟨.empty time, [], [], fun _ => none⟩

/-- The history as it is now. -/
def System.since (s : System Fp) : Since := ⟨s.completions.length, s.markers.length⟩

/-- The system with call `i` moved. -/
def System.setCall (s : System Fp) (i : Nat) (call : AcceptCall Fp) : System Fp :=
  { s with calls := Function.update s.calls i (some call) }

@[simp] theorem System.setCall_self (s : System Fp) (i : Nat) (call : AcceptCall Fp) :
    (s.setCall i call).calls i = some call := Function.update_self ..

theorem System.setCall_of_ne (s : System Fp) {i j : Nat} (call : AcceptCall Fp) (h : j ≠ i) :
    (s.setCall i call).calls j = s.calls j := Function.update_of_ne h ..

/-- What is asked of marker lookups and of callers of `complete`. -/
structure Discipline (Fp : Type) where
  /-- A lookup that began at `since` may find nothing of this event in this chat. -/
  Absent : System Fp → Since → String → String → Prop
  /-- A client may make this call. -/
  Ready : System Fp → Call Fp → Prop

/-- A lookup does not miss an event completed before it began. -/
def Discipline.promised : Discipline Fp where
  Absent s since chat id := (chat, id) ∉ s.completions.take since.completions
  Ready _ _ := True

/-- A lookup does not miss a marker that was durable when it began, and
`complete` comes with a durable marker. -/
def Discipline.durable : Discipline Fp where
  Absent s since chat id :=
    ∀ m ∈ s.markers.take since.markers, ¬ (m.canonicalChatId = chat ∧ m.eventId = id)
  Ready s c :=
    match c.op with
    | .complete w session sends => ∃ m ∈ s.markers, VerifiedProof m c.chat w.eventId ∧
        m.eventFingerprint = w.fingerprint ∧ m.session = session ∧ m.confirmedSends = sends
    | _ => True

/-- The operation is the script of `accept`. -/
def Op.Accepts : Op Fp → Prop
  | .accept .. => True
  | _ => False

/-- The completion that a label is, with its chat. -/
def completionOf (fingerprint : NotificationV2 → Fp) (l : Label Fp) : List (String × String) :=
  match Label.observation fingerprint l with
  | some (chat, .completed w) => [(chat, w.eventId)]
  | _ => []

variable [DecidableEq Fp]

/-- One step of the system. -/
inductive System.Step (D : Discipline Fp) (chats : List String)
    (fingerprint : NotificationV2 → Fp) : System Fp → Label Fp → System Fp → Prop
  /-- Time passes, or a client calls a script other than `accept`. -/
  | client {s : System Fp} {l : Label Fp} {t : Store Fp}
      (hstep : Store.Step chats fingerprint s.store l t)
      (hop : ∀ c r, l = some (c, r) → ¬ c.op.Accepts ∧ D.Ready s c) :
      Step D chats fingerprint s l
        { s with store := t, completions := s.completions ++ completionOf fingerprint l }
  /-- A marker becomes durable. -/
  | append {s : System Fp} (m : CompletionProof Fp) :
      Step D chats fingerprint s none { s with markers := s.markers ++ [m] }
  | start {s : System Fp} {i : Nat} (event : NotificationV2) (hidle : s.calls i = none)
      (hallowed : event.canonicalChatJid ∈ chats) :
      Step D chats fingerprint s none (s.setCall i ⟨event, 0, .snapshot⟩)
  | snapshot {s : System Fp} {i n : Nat} {event : NotificationV2} {clk : Clock} {t : Store Fp}
      {revision cursor identityRevision : String}
      (hcall : s.calls i = some ⟨event, n, .snapshot⟩) (hattempt : n < 8)
      (hstep : Store.Step chats fingerprint s.store
        (some (⟨event.canonicalChatJid, .snapshot, clk⟩,
          .revisions revision cursor identityRevision)) t) :
      Step D chats fingerprint s
        (some (⟨event.canonicalChatJid, .snapshot, clk⟩,
          .revisions revision cursor identityRevision))
        ({ s with store := t }.setCall i
          ⟨event, n, .lookup ⟨revision, identityRevision⟩ chats false s.since⟩)
  /-- `findEvent` finds nothing in the candidate. -/
  | absent {s : System Fp} {i n : Nat} {event : NotificationV2} {snapshot : Snapshot}
      {candidate : String} {rest : List String} {completed : Bool} {since : Since}
      (hcall : s.calls i = some ⟨event, n, .lookup snapshot (candidate :: rest) completed since⟩)
      (habsent : D.Absent s since candidate event.eventId) :
      Step D chats fingerprint s none
        (s.setCall i ⟨event, n, .lookup snapshot rest completed s.since⟩)
  /-- `findEvent` finds a marker that is not of exactly this event. -/
  | foreign {s : System Fp} {i n : Nat} {event : NotificationV2} {snapshot : Snapshot}
      {candidate : String} {rest : List String} {completed : Bool} {since : Since}
      {m : CompletionProof Fp}
      (hcall : s.calls i = some ⟨event, n, .lookup snapshot (candidate :: rest) completed since⟩)
      (hmarker : m ∈ s.markers) (hverified : VerifiedProof m candidate event.eventId)
      (hforeign : ¬ OwnProof fingerprint m candidate event) :
      Step D chats fingerprint s none (s.setCall i ⟨event, n, .flush .conflict⟩)
  /-- `findEvent` finds the marker of this event. -/
  | own {s : System Fp} {i n : Nat} {event : NotificationV2} {snapshot : Snapshot}
      {candidate : String} {rest : List String} {completed : Bool} {since : Since}
      {m : CompletionProof Fp}
      (hcall : s.calls i = some ⟨event, n, .lookup snapshot (candidate :: rest) completed since⟩)
      (hmarker : m ∈ s.markers) (hverified : VerifiedProof m candidate event.eventId)
      (hown : OwnProof fingerprint m candidate event) :
      Step D chats fingerprint s none (s.setCall i ⟨event, n, .read snapshot rest m⟩)
  /-- The session that the chat is bound to is that of the marker. -/
  | read {s : System Fp} {i n : Nat} {event : NotificationV2} {snapshot : Snapshot}
      {rest : List String} {m : CompletionProof Fp} {clk : Clock} {t : Store Fp}
      {cursor : String} {pause : Option PauseReason} {gap : Option Nat}
      (hcall : s.calls i = some ⟨event, n, .read snapshot rest m⟩)
      (hstep : Store.Step chats fingerprint s.store
        (some (⟨event.canonicalChatJid, .read, clk⟩,
          .chat cursor (some m.session) pause gap)) t) :
      Step D chats fingerprint s
        (some (⟨event.canonicalChatJid, .read, clk⟩, .chat cursor (some m.session) pause gap))
        ({ s with store := t }.setCall i ⟨event, n, .lookup snapshot rest true s.since⟩)
  /-- All configured chats are looked up. -/
  | looked {s : System Fp} {i n : Nat} {event : NotificationV2} {snapshot : Snapshot}
      {completed : Bool} {since : Since}
      (hcall : s.calls i = some ⟨event, n, .lookup snapshot [] completed since⟩) :
      Step D chats fingerprint s none (s.setCall i ⟨event, n, .submit snapshot completed⟩)
  | submit {s : System Fp} {i n : Nat} {event : NotificationV2} {snapshot : Snapshot}
      {completed : Bool} {clk : Clock} {t : Store Fp} {r : Reply Fp}
      (hcall : s.calls i = some ⟨event, n, .submit snapshot completed⟩)
      (hstep : Store.Step chats fingerprint s.store
        (some (⟨event.canonicalChatJid, .accept snapshot.revision event (fingerprint event)
          completed snapshot.identityRevision, clk⟩, r)) t) :
      Step D chats fingerprint s
        (some (⟨event.canonicalChatJid, .accept snapshot.revision event (fingerprint event)
          completed snapshot.identityRevision, clk⟩, r))
        ({ s with store := t }.setCall i (afterAccept event n r))
  | flush {s : System Fp} {i n : Nat} {event : NotificationV2} {answer : Acceptance}
      (hcall : s.calls i = some ⟨event, n, .flush answer⟩) :
      Step D chats fingerprint s none (s.setCall i ⟨event, n, .done answer⟩)
  /-- An await fails, or the rounds are used up. -/
  | fail {s : System Fp} {i n : Nat} {event : NotificationV2} {pc : AcceptPc Fp}
      (hcall : s.calls i = some ⟨event, n, pc⟩) (hpc : ∀ answer, pc ≠ .done answer) :
      Step D chats fingerprint s none (s.setCall i ⟨event, n, .done .unavailable⟩)

/-! ## The store of the system -/

/-- A step of the system is one of its store; a call that moves without the
store lets no time pass. -/
theorem System.Step.store {D : Discipline Fp} {chats : List String}
    {fingerprint : NotificationV2 → Fp} {s t : System Fp} {l : Label Fp}
    (h : System.Step D chats fingerprint s l t) :
    Store.Step chats fingerprint s.store l t.store := by
  cases h with
  | client hstep => exact hstep
  | snapshot _ _ hstep => exact hstep
  | read _ hstep => exact hstep
  | submit _ hstep => exact hstep
  | append | start | absent | foreign | own | looked | flush | fail => exact .tick (le_refl _)

theorem exec_store {D : Discipline Fp} {chats : List String} {fingerprint : NotificationV2 → Fp}
    {s t : System Fp} {es : List (Label Fp)}
    (h : Exec (System.Step D chats fingerprint) s es t) :
    Exec (Store.Step chats fingerprint) s.store es t.store := by
  induction h with
  | nil => exact .nil
  | snoc _ last ih => exact ih.snoc last.store

/-- Markers are only added. -/
theorem System.Step.markers {D : Discipline Fp} {chats : List String}
    {fingerprint : NotificationV2 → Fp} {s t : System Fp} {l : Label Fp}
    (h : System.Step D chats fingerprint s l t) : s.markers <+: t.markers := by
  cases h with
  | append m => exact List.prefix_append _ _
  | _ => exact List.prefix_refl _

/-! ## Running calls -/

section Running

variable {D : Discipline Fp} {chats : List String} {fingerprint : NotificationV2 → Fp}
  {s₀ s : System Fp} {es : List (Label Fp)}

/-- A client call at one time, at the end of a run. -/
theorem exec_client (h : Exec (System.Step D chats fingerprint) s₀ es s) (chat : String)
    (time : Nat) (op : Op Fp) (hissued : Call.Issued chats fingerprint ⟨chat, op, .frozen time⟩)
    (htime : s.store.time ≤ time)
    (hop : ¬ op.Accepts ∧ D.Ready s ⟨chat, op, .frozen time⟩) :
    Exec (System.Step D chats fingerprint) s₀
      (es ++ [some (⟨chat, op, .frozen time⟩, (op.run (.frozen time) (s.store.keys chat)).1)])
      { s with
        store := s.store.write chat (op.run (.frozen time) (s.store.keys chat)).2 time
        completions := s.completions ++ completionOf fingerprint
          (some (⟨chat, op, .frozen time⟩, (op.run (.frozen time) (s.store.keys chat)).1)) } :=
  h.snoc (.client (.call hissued htime (fun _ => le_refl _) rfl)
    fun c r heq => by cases heq; exact hop)

/-- The labels of a delivery at one time that reads and then calls `op`. -/
def acceptLabels (s : System Fp) (event : NotificationV2) (time : Nat) (op : Op Fp) :
    List (Label Fp) :=
  [none, some (⟨event.canonicalChatJid, .snapshot, .frozen time⟩,
      .revisions (counter (s.store.chats event.canonicalChatJid).state.revision)
        (s.store.keys event.canonicalChatJid).cursor (counter s.store.app.identityRevision)),
    none, none, some (⟨event.canonicalChatJid, op, .frozen time⟩,
      (op.run (.frozen time) (s.store.keys event.canonicalChatJid)).1)]

/-- The rest of a call of `accept` at one time, when there is one chat and no marker. -/
theorem exec_called (event : NotificationV2)
    (h : Exec (System.Step D [event.canonicalChatJid] fingerprint) s₀ es s) (i time : Nat)
    (hcall : s.calls i = some ⟨event, 0, .snapshot⟩) (htime : s.store.time ≤ time)
    (habsent : ∀ u since, u.markers = s.markers →
      D.Absent u since event.canonicalChatJid event.eventId)
    {op : Op Fp} (hop : op = .accept
      (counter (s.store.chats event.canonicalChatJid).state.revision) event (fingerprint event)
      false (counter s.store.app.identityRevision)) :
    Exec (System.Step D [event.canonicalChatJid] fingerprint) s₀
      (es ++ (acceptLabels s event time op).tail)
      { s with
        store := s.store.write event.canonicalChatJid
          (op.run (.frozen time) (s.store.keys event.canonicalChatJid)).2 time
        calls := Function.update s.calls i (some (afterAccept event 0
          (op.run (.frozen time) (s.store.keys event.canonicalChatJid)).1)) } := by
  have hread : Store.Step [event.canonicalChatJid] fingerprint s.store
      (some (⟨event.canonicalChatJid, .snapshot, .frozen time⟩,
        .revisions (counter (s.store.chats event.canonicalChatJid).state.revision)
          (s.store.keys event.canonicalChatJid).cursor (counter s.store.app.identityRevision)))
      { s.store with time := time } := by
    rw [← s.store.write_keys event.canonicalChatJid time]
    exact .call ⟨List.mem_singleton.mpr rfl, trivial⟩ htime (fun _ => le_refl _) rfl
  have hsnapshot := h.snoc (.snapshot hcall (by omega) hread)
  have hlooked := (hsnapshot.snoc (.absent (System.setCall_self ..)
    (habsent _ _ rfl))).snoc (.looked (System.setCall_self ..))
  have hwrite : Store.Step [event.canonicalChatJid] fingerprint { s.store with time := time }
      (some (⟨event.canonicalChatJid, op, .frozen time⟩,
        (op.run (.frozen time) (s.store.keys event.canonicalChatJid)).1))
      (s.store.write event.canonicalChatJid
        (op.run (.frozen time) (s.store.keys event.canonicalChatJid)).2 time) := by
    subst hop
    exact .call ⟨List.mem_singleton.mpr rfl, rfl, rfl⟩ (le_refl time) (fun _ => le_refl _) rfl
  subst hop
  have hsubmit := hlooked.snoc (.submit (System.setCall_self ..) hwrite)
  simp only [System.setCall, Function.update_idem, List.append_assoc] at hsubmit
  exact hsubmit

/-- A call of `accept` at one time, at the end of a run, when there is one chat
and no marker. -/
theorem exec_accept (event : NotificationV2)
    (h : Exec (System.Step D [event.canonicalChatJid] fingerprint) s₀ es s) (i time : Nat)
    (hidle : s.calls i = none) (htime : s.store.time ≤ time)
    (habsent : ∀ u since, u.markers = s.markers →
      D.Absent u since event.canonicalChatJid event.eventId)
    {op : Op Fp} (hop : op = .accept
      (counter (s.store.chats event.canonicalChatJid).state.revision) event (fingerprint event)
      false (counter s.store.app.identityRevision)) :
    Exec (System.Step D [event.canonicalChatJid] fingerprint) s₀ (es ++ acceptLabels s event time op)
      { s with
        store := s.store.write event.canonicalChatJid
          (op.run (.frozen time) (s.store.keys event.canonicalChatJid)).2 time
        calls := Function.update s.calls i (some (afterAccept event 0
          (op.run (.frozen time) (s.store.keys event.canonicalChatJid)).1)) } := by
  have hstart := h.snoc (.start (i := i) event hidle (List.mem_singleton.mpr rfl))
  have hcalled := exec_called event hstart i time (System.setCall_self ..) htime habsent hop
  simp only [System.setCall, Function.update_idem, List.append_assoc] at hcalled
  exact hcalled

end Running

end WhatsAppMcp.Controller.Redis
