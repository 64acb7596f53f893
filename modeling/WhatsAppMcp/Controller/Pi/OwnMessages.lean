import WhatsAppMcp.Controller.Pi.Queries
import WhatsAppMcp.Controller.Redis.Delivery
import WhatsAppMcp.Controller.Redis.Journal
import WhatsAppMcp.Controller.Schemas

/-!
# Whose message it is

`classifyOwn` decides whether a message from the own account is the report of a
send of the controller or was typed by hand.  It reads the journals of all
chats, rebuilds the completion index between two such reads, and reads the
journals again; a completion moves the evidence from the first place to the
second meanwhile.

The law rests on one fact about the system: a send that is confirmed in a
journal stays there until a durable marker reports it.

* `System.Step.confirmed`: that fact for one step.
* `ownMutation_none`: if `ownMutation` finds nothing, a marker has the send.
* `ownMutation_unsettled`: an unsettled attempt at the destination answers for itself.
-/

namespace WhatsAppMcp.Controller.Pi

open Calls Redis Trace

variable {Fp : Type}

/-! ## `ownMutation` -/

/-- What `ownMutation` answers. -/
inductive OwnMutation where
  | confirmed
  | uncertain
  | none
  deriving DecidableEq, Repr

/-- `journalRecord`: a record of the chat. -/
def isJournalRecord (record : JournalEnvelope Fp) (chat : String) : Bool :=
  record.state.shaped && record.session.canonicalChatId = chat && record.state.canonicalChatId = chat

/-- The loop of `ownMutation` over the journal of one chat; `none` is its early
return of `uncertain`. -/
def ownRecords (actual messageId chat : String) (session : Option SessionBinding) :
    List (JournalRecord Fp) → Bool → Except ErrorClass (Option Bool)
  | [], confirmed => .ok (some confirmed)
  | .legacy a :: rest, confirmed =>
    if a.shaped = false then .error .mutationUncertain
    else if a.destination = actual then .ok none
    else ownRecords actual messageId chat session rest confirmed
  | .native record :: rest, confirmed =>
    if isJournalRecord record chat = false then .error .mutationUncertain
    else if session ≠ some record.session then .error .mutationUncertain
    else if record.state.destination ≠ actual then
      ownRecords actual messageId chat session rest confirmed
    else if record.state.status ≠ .confirmed then .ok none
    else if record.state.messageId = some messageId then
      ownRecords actual messageId chat session rest true
    else ownRecords actual messageId chat session rest confirmed

/-- The loop of `ownMutation` over the chats. -/
def ownChats (actual messageId : String) : List String → Bool → Async Fp OwnMutation
  | [], confirmed => pure (if confirmed then .confirmed else .none)
  | chat :: rest, confirmed => do
    let state ← evalScript chat .read
    let journal ← evalScript chat .journalList
    match state, journal with
    | .chat _ session _ _, .journal records =>
      match ownRecords actual messageId chat session records confirmed with
      | .error code => throw code
      | .ok none => pure .uncertain
      | .ok (some confirmed) => ownChats actual messageId rest confirmed
    | _, _ => throw .storeUnavailable

/-- `ownMutation`. -/
def ownMutation (chats : List String) (actual messageId : String) : Async Fp OwnMutation :=
  if chatJidSchema actual = false ∨ messageIdSchema messageId = false then
    throw .mutationUncertain
  else ownChats actual messageId chats false

/-! ## `classifyOwn` -/

/-- What `classifyOwn` answers. -/
inductive Classification where
  | confirmed
  | manual
  | uncertain
  deriving DecidableEq, Repr

/-- Some marker reports the send. -/
def reported (actual messageId : String) (proofs : List (CompletionProof Fp)) : Bool :=
  proofs.any fun p => p.confirmedSends.any fun s => s.destination = actual ∧ s.messageId = messageId

/-- The chat that a message of this chat belongs to. -/
def route (policy : AdmissionPolicy) (actual : String) : Option String :=
  if actual ∈ policy.operatorJids then policy.operatorJids.head? else some actual

/-- The `try` block of `classifyOwn` of the completion index. -/
def indexClassify (policy : AdmissionPolicy) (chat actual messageId : String) :
    Async Fp Classification :=
  if route policy actual ≠ some chat ∨ chat ∉ policy.configuredChats ∨ messageId = "" then throw .sessionFailed
  else do
    if (← ownMutation policy.configuredChats actual messageId) = .uncertain then
      pure .uncertain
    else
      let proofs ← rebuild
      if (← ownMutation policy.configuredChats actual messageId) = .uncertain then
        pure .uncertain
      else pure (if reported actual messageId proofs then .confirmed else .manual)

/-- `classifyOwn` of the completion index. -/
def indexClassifyOwn (policy : AdmissionPolicy) (chat actual messageId : String) :
    Async Fp Classification :=
  tryCatch (indexClassify policy chat actual messageId) fun _ => throw .sessionFailed

/-- `classifyOwn` of the tool journal. -/
def journalClassifyOwn (chats : List String) (actual messageId : String)
    (fallback : Async Fp Classification) : Async Fp Classification := do
  let first ← ownMutation chats actual messageId
  if first = .uncertain then pure .uncertain
  else
    let indexed ← fallback
    if indexed = .uncertain then pure .uncertain
    else
      let last ← ownMutation chats actual messageId
      if last = .uncertain then pure .uncertain
      else if last = .confirmed ∨ indexed = .confirmed then pure .confirmed
      else if first = .confirmed then
        let settled ← fallback
        pure (if settled = .confirmed then .confirmed else .uncertain)
      else pure indexed

/-- `classifyOwn` of the host. -/
def classifyOwn (policy : AdmissionPolicy) (chat actual messageId : String) :
    Async Fp Classification :=
  journalClassifyOwn policy.configuredChats actual messageId
    (indexClassifyOwn policy chat actual messageId)

/-! ## Where the evidence of a send is -/

/-- A record of the chat's journal reports the send as confirmed. -/
def ConfirmedAt (chat a actual messageId : String) (s : System Fp) : Prop :=
  ∃ record, (s.store.chats chat).tools.lookup a = some record ∧
    record.state.status = .confirmed ∧ record.state.destination = actual ∧
      record.state.messageId = some messageId

/-- A durable marker reports the send. -/
def Marked (actual messageId : String) (s : System Fp) : Prop :=
  ⟨actual, messageId⟩ ∈ s.markers.flatMap CompletionProof.confirmedSends

/-- A record of the chat's journal is an unsettled attempt at the destination. -/
def UnsettledAt (chat a actual : String) (s : System Fp) : Prop :=
  ∃ record, (s.store.chats chat).tools.lookup a = some record ∧
    record.state.status ≠ .confirmed ∧ record.state.destination = actual

/-- The journal is in order, and the send is in it or a marker has it. -/
structure Evidence (chat a actual messageId : String) (s : System Fp) : Prop where
  leased : s.store.Leased
  journalled : ∀ chat, Journalled (s.store.core chat)
  found : ConfirmedAt chat a actual messageId s ∨ Marked actual messageId s

variable [DecidableEq Fp] {chats : List String} {fingerprint : NotificationV2 → Fp}

section Steps

variable {clk : Clock} {k : Keys Fp} {op : Op Fp} {r : Reply Fp} {d : Core Fp} {a : String}
  {s t : System Fp} {l : Label Fp} {chat actual messageId : String}

/-- A call leaves a confirmed record, or completes with a send that reports it. -/
theorem confirmed_effect (heffect : Effect fingerprint clk k op r d) (hkeyed : Keyed k.tools)
    {record : JournalRecord Fp} (hlookup : k.tools.lookup a = some record)
    (hconfirmed : record.state.status = .confirmed) :
    d.tools.lookup a = some record ∨
      ∃ w session sends, op = .complete w session sends ∧ Settled record w sends := by
  cases heffect with
  | @completed w session sends e hwork hseq hsession htools =>
    exact .inr ⟨w, session, sends, rfl, htools _ (mem_vals.mpr ⟨a, hlookup⟩)⟩
  | swept =>
    left
    show (sweep k.tools).1.lookup a = some record
    rw [sweep_lookup hkeyed, hlookup]
    simp [JournalRecord.swept, hconfirmed]
  | @journalled w attemptId state e hwork hnew | @opened w attemptId record' session e hwork hnew =>
    left
    have hne : a ≠ attemptId := by
      rintro rfl
      rw [hnew] at hlookup
      cases hlookup
    rw [AList.lookup_insert_ne hne]
    exact hlookup
  | @settled w attemptId settlement record' e hwork hrecord hevent hstatus =>
    left
    have hne : a ≠ attemptId := by
      rintro rfl
      rw [hrecord] at hlookup
      cases hlookup
      rw [hconfirmed] at hstatus
      cases hstatus
    rw [AList.lookup_insert_ne hne]
    exact hlookup
  | _ => exact .inl hlookup

theorem marked_step (hstep : System.Step .durable chats fingerprint s l t)
    (h : Marked actual messageId s) : Marked actual messageId t := by
  obtain ⟨m, hm, hsend⟩ := List.mem_flatMap.mp h
  exact List.mem_flatMap.mpr ⟨m, hstep.markers.subset hm, hsend⟩

/-- `complete` comes with a durable marker of the sends that it settles. -/
theorem complete_ready {c : Call Fp} {w : WorkArgs Fp} {session : SessionBinding}
    {sends : List ConfirmedSend} (hstep : System.Step .durable chats fingerprint s (some (c, r)) t)
    (hop : c.op = .complete w session sends) : ∃ m ∈ s.markers, m.confirmedSends = sends := by
  cases hstep with
  | client hstore hclient =>
    have hready := (hclient c r rfl).2
    simp only [Discipline.durable, hop] at hready
    obtain ⟨m, hm, -, -, -, hsends⟩ := hready
    exact ⟨m, hm, hsends⟩
  | snapshot => cases hop
  | read => cases hop
  | submit => cases hop

/-- A send that is confirmed stays in the journal until a marker has it. -/
theorem evidence_step (hstep : System.Step .durable chats fingerprint s l t)
    (h : Evidence chat a actual messageId s) : Evidence chat a actual messageId t := by
  refine ⟨step_leased h.leased hstep.store, step_journalled h.leased h.journalled hstep.store, ?_⟩
  obtain hconfirmed | hmarked := h.found
  · obtain ⟨record, hlookup, hstatus, hdestination, hmessage⟩ := hconfirmed
    have hkept : (t.store.chats chat).tools.lookup a = some record →
        ConfirmedAt chat a actual messageId t := fun hlookup' =>
      ⟨record, hlookup', hstatus, hdestination, hmessage⟩
    obtain ⟨-, ⟨-, hcore⟩ | ⟨c, r, rfl, -, -, -, heffect, hother⟩⟩ := hstep.store.cases_on_core
    · have htools : (t.store.chats chat).tools = (s.store.chats chat).tools :=
        congrArg Core.tools (hcore chat)
      exact .inl (hkept (htools ▸ hlookup))
    by_cases hchat : chat = c.chat
    · subst hchat
      obtain hsame | ⟨w, session, sends, hop, hsettled⟩ :=
        confirmed_effect heffect (h.journalled c.chat).keyed hlookup hstatus
      · exact .inl (hkept hsame)
      · obtain ⟨m, hm, hsends⟩ := complete_ready hstep hop
        obtain ⟨sent, hsent, hto, hid⟩ := hsettled.2.2.2
        rw [hmessage] at hid
        obtain rfl : sent = ⟨actual, messageId⟩ := by
          cases sent
          simp only [Option.some.injEq] at hid
          rw [hdestination] at hto
          rw [hid]
          congr
        right
        exact marked_step hstep (List.mem_flatMap.mpr ⟨m, hm, hsends ▸ hsent⟩)
    · have htools : (t.store.chats chat).tools = (s.store.chats chat).tools :=
        congrArg Core.tools (hother chat hchat)
      exact .inl (hkept (htools ▸ hlookup))
  · exact .inr (marked_step hstep hmarked)

end Steps

/-! ## What the reads find -/

section Reads

variable {records : List (JournalRecord Fp)} {session : Option SessionBinding}
  {chat actual messageId : String} {before after : Bool}

omit [DecidableEq Fp] in
/-- What was confirmed before the journal is confirmed after it. -/
theorem ownRecords_mono
    (h : ownRecords actual messageId chat session records before = .ok (some after)) :
    before = true → after = true := by
  fun_induction ownRecords actual messageId chat session records before with
  | case1 confirmed =>
    cases h
    exact id
  | case2 | case3 | case5 | case6 | case8 => cases h
  | case4 _ _ _ _ _ ih | case7 _ _ _ _ _ _ ih | case10 _ _ _ _ _ _ _ _ ih => exact ih h
  | case9 _ _ _ _ _ _ _ _ ih => exact fun _ => ih h rfl

omit [DecidableEq Fp] in
/-- A journal that is read to its end reports its confirmed records. -/
theorem ownRecords_confirmed {record : JournalRecord Fp} (hmem : record ∈ records)
    (hstatus : record.state.status = .confirmed) (hdestination : record.state.destination = actual)
    (hmessage : record.state.messageId = some messageId)
    (h : ownRecords actual messageId chat session records before = .ok (some after)) :
    after = true := by
  fun_induction ownRecords actual messageId chat session records before with
  | case1 => cases hmem
  | case2 | case3 | case5 | case6 | case8 => cases h
  | case4 a rest confirmed hshaped hother ih =>
    obtain rfl | hmem := List.mem_cons.mp hmem
    · exact absurd hdestination hother
    · exact ih hmem h
  | case7 r rest confirmed _ _ hother ih =>
    obtain rfl | hmem := List.mem_cons.mp hmem
    · exact absurd hdestination hother
    · exact ih hmem h
  | case9 r rest confirmed _ _ _ _ _ ih =>
    obtain rfl | hmem := List.mem_cons.mp hmem
    · exact ownRecords_mono h rfl
    · exact ih hmem h
  | case10 r rest confirmed _ _ _ _ hother ih =>
    obtain rfl | hmem := List.mem_cons.mp hmem
    · exact absurd hmessage hother
    · exact ih hmem h

omit [DecidableEq Fp] in
/-- A journal with an unsettled attempt at the destination is not read to its end. -/
theorem ownRecords_unsettled {record : JournalRecord Fp} (hmem : record ∈ records)
    (hstatus : record.state.status ≠ .confirmed) (hdestination : record.state.destination = actual) :
    ownRecords actual messageId chat session records before ≠ .ok (some after) := by
  intro h
  fun_induction ownRecords actual messageId chat session records before with
  | case1 => cases hmem
  | case2 | case3 | case5 | case6 | case8 => cases h
  | case4 a rest confirmed hshaped hother ih =>
    obtain rfl | hmem := List.mem_cons.mp hmem
    · exact hother hdestination
    · exact ih hmem h
  | case7 r rest confirmed _ _ hother ih =>
    obtain rfl | hmem := List.mem_cons.mp hmem
    · exact hother hdestination
    · exact ih hmem h
  | case9 r rest confirmed _ _ _ hopen _ ih | case10 r rest confirmed _ _ _ hopen _ ih =>
    obtain rfl | hmem := List.mem_cons.mp hmem
    · exact hopen hstatus
    · exact ih hmem h

variable {P : System Fp → Prop} {s t : System Fp} {rest : List String} {a : String}
  {answer : OwnMutation}

/-- One round of the loop over the chats: the journal of the chat is read at
some point, and either the answer is `uncertain` or the loop goes on. -/
theorem ownChats_cons (h : (ownChats actual messageId (chat :: rest) before).Runs
    (Answers .durable chats fingerprint P) s (.ok answer) t) :
    ∃ session u v, Moves .durable chats fingerprint P s u ∧ Moves .durable chats fingerprint P u v ∧
      ((ownRecords actual messageId chat session (u.store.chats chat).tools.vals before =
          .ok none ∧ answer = .uncertain ∧ t = v) ∨
        ∃ after, ownRecords actual messageId chat session (u.store.chats chat).tools.vals before =
            .ok (some after) ∧
          (ownChats actual messageId rest after).Runs (Answers .durable chats fingerprint P) v
            (.ok answer) t) := by
  unfold ownChats at h
  obtain ⟨state, v₁, hread, h⟩ := Prog.runs_bind_ok.mp h
  obtain ⟨journal, v₂, hlist, h⟩ := Prog.runs_bind_ok.mp h
  have hmoves := (runs_ask_ok.mp hread).moves
  split at h
  · next session _ _ records _ =>
    obtain ⟨u, hbefore, hafter, rfl⟩ := (runs_ask_ok.mp hlist).journalList
    refine ⟨session, u, v₂, hmoves.trans hbefore, hafter, ?_⟩
    split at h
    · cases h.1
    · next hscan =>
      obtain ⟨hanswer, rfl⟩ := h
      cases hanswer
      exact .inl ⟨hscan, rfl, rfl⟩
    · next after hscan => exact .inr ⟨after, hscan, h⟩
  · cases h.1

/-- Once a send is found confirmed, the loop does not answer `none`. -/
theorem ownChats_confirmed (h : (ownChats actual messageId rest true).Runs
    (Answers .durable chats fingerprint P) s (.ok answer) t) : answer ≠ .none := by
  induction rest generalizing s with
  | nil =>
    cases h.1
    simp
  | cons chat rest ih =>
    obtain ⟨session, u, v, -, -, ⟨-, rfl, -⟩ | ⟨after, hscan, hrest⟩⟩ := ownChats_cons h
    · simp
    · obtain rfl := ownRecords_mono hscan rfl
      exact ih hrest

/-- If the loop finds nothing of a send that has evidence, a marker has it. -/
theorem ownChats_none (hchat : chat ∈ rest) (hs : Evidence chat a actual messageId s)
    (h : (ownChats actual messageId rest before).Runs (Answers .durable chats fingerprint P) s
      (.ok .none) t) : Marked actual messageId t := by
  induction rest generalizing s before with
  | nil => cases hchat
  | cons head rest ih =>
    obtain ⟨session, u, v, hbefore, hafter, ⟨-, hanswer, -⟩ | ⟨after, hscan, hrest⟩⟩ :=
      ownChats_cons h
    · cases hanswer
    · have hu : Evidence chat a actual messageId u :=
        hbefore.invariant hs fun _ _ _ => evidence_step
      have hv : Evidence chat a actual messageId v :=
        hafter.invariant hu fun _ _ _ => evidence_step
      obtain rfl | hchat := List.mem_cons.mp hchat
      · obtain ⟨record, hlookup, hstatus, hdestination, hmessage⟩ | hmarked := hu.found
        · obtain rfl := ownRecords_confirmed (mem_vals.mpr ⟨a, hlookup⟩) hstatus hdestination
            hmessage hscan
          exact absurd rfl (ownChats_confirmed hrest)
        · refine hrest.invariant (hafter.invariant hmarked fun _ _ _ => marked_step) ?_
          exact fun _ _ _ _ hanswer hm => hanswer.invariant hm fun _ _ _ => marked_step
      · exact ih hchat hv hrest

/-- While an unsettled attempt at the destination is there, the loop answers `uncertain`. -/
theorem ownChats_unsettled (hchat : chat ∈ rest) (hheld : ∀ x, P x → UnsettledAt chat a actual x)
    (hs : P s) (h : (ownChats actual messageId rest before).Runs
      (Answers .durable chats fingerprint P) s (.ok answer) t) : answer = .uncertain := by
  induction rest generalizing s before with
  | nil => cases hchat
  | cons head rest ih =>
    obtain ⟨session, u, v, hbefore, hafter, ⟨-, hanswer, -⟩ | ⟨after, hscan, hrest⟩⟩ :=
      ownChats_cons h
    · exact hanswer
    · have hu := hbefore.held hs
      obtain rfl | hchat := List.mem_cons.mp hchat
      · obtain ⟨record, hlookup, hstatus, hdestination⟩ := hheld u hu
        exact absurd hscan
          (ownRecords_unsettled (mem_vals.mpr ⟨a, hlookup⟩) hstatus hdestination)
      · exact ih hchat (hafter.held hu) hrest

/-- `ownMutation` that answers is its loop. -/
theorem ownMutation_ok (h : (ownMutation rest actual messageId).Runs
    (Answers .durable chats fingerprint P) s (.ok answer) t) :
    (ownChats actual messageId rest false).Runs (Answers .durable chats fingerprint P) s
      (.ok answer) t := by
  unfold ownMutation at h
  split at h
  · cases h.1
  · exact h

end Reads

/-! ## The classification -/

section Classify

variable {policy : AdmissionPolicy} {P : System Fp → Prop} {s t : System Fp}
  {chat a actual messageId home : String} {answer : Classification}

/-- The index does not take a send that a marker has for a manual one. -/
theorem indexClassifyOwn_marked (hs : Marked actual messageId s)
    (h : (indexClassifyOwn policy chat actual messageId).Runs
      (Answers .durable chats fingerprint P) s (.ok answer) t) : answer ≠ .manual := by
  have hkeep : ∀ (s : System Fp) (q : Query Fp) (v : q.Answer) (t : System Fp),
      Answers .durable chats fingerprint P s q v t → Marked actual messageId s →
        Marked actual messageId t :=
    fun _ _ _ _ hanswer hm => hanswer.invariant hm fun _ _ _ => marked_step
  unfold indexClassifyOwn at h
  replace h := Prog.runs_rethrow_ok.mp h
  unfold indexClassify at h
  split at h
  · cases h.1
  obtain ⟨first, u, hfirst, h⟩ := Prog.runs_bind_ok.mp h
  split at h
  · cases h.1
    simp
  obtain ⟨proofs, v, hproofs, h⟩ := Prog.runs_bind_ok.mp h
  obtain ⟨last, w, -, h⟩ := Prog.runs_bind_ok.mp h
  split at h
  · cases h.1
    simp
  · -- The lookup began with the marker.
    have hu := hfirst.invariant hs hkeep
    obtain ⟨m, hm, hsend⟩ := List.mem_flatMap.mp hu
    cases runs_ask_ok.mp hproofs with
    | proofs _ complete =>
      have hfound : reported actual messageId proofs = true := by
        unfold reported
        rw [List.any_eq_true]
        refine ⟨m, complete m hm, List.any_eq_true.mpr ⟨_, hsend, ?_⟩⟩
        simp
      rw [hfound] at h
      cases h.1
      simp

/-- The journal answers `manual` only if its first reading found nothing and
the index then said so. -/
theorem journalClassifyOwn_manual {fallback : Async Fp Classification}
    (h : (journalClassifyOwn chats actual messageId fallback).Runs
      (Answers .durable chats fingerprint P) s (.ok .manual) t) :
    ∃ u v, (ownMutation chats actual messageId).Runs (Answers .durable chats fingerprint P) s
        (.ok .none) u ∧
      fallback.Runs (Answers .durable chats fingerprint P) u (.ok .manual) v := by
  unfold journalClassifyOwn at h
  obtain ⟨first, s₁, hfirst, h₁⟩ := Prog.runs_bind_ok.mp h
  split at h₁
  · cases h₁.1
  obtain ⟨indexed, s₂, hindexed, h₂⟩ := Prog.runs_bind_ok.mp h₁
  split at h₂
  · cases h₂.1
  obtain ⟨last, s₃, -, h₃⟩ := Prog.runs_bind_ok.mp h₂
  split at h₃
  · cases h₃.1
  split at h₃
  · cases h₃.1
  split at h₃
  · obtain ⟨settled, s₄, -, h₄⟩ := Prog.runs_bind_ok.mp h₃
    have hanswer := h₄.1
    split at hanswer <;> cases hanswer
  · next huncertain _ _ _ hconfirmed =>
    cases h₃.1
    cases first with
    | confirmed => exact absurd rfl hconfirmed
    | uncertain => exact absurd rfl huncertain
    | none => exact ⟨s₁, s₂, hfirst, hindexed⟩

/-- A reported send is never classified as manual: in every state of every run
in which `complete` comes with a durable marker, and whatever else happens
while `classifyOwn` waits (`P` is what holds all that time),

* if the send was confirmed in a journal or reported by a durable marker at
  some time before, the answer is not `manual`,
* if one unsettled attempt at the destination is in a journal all the while,
  the answer is `uncertain`. -/
theorem reported_send_not_manual {time : Nat} {es es' : List (Label Fp)} {s₀ : System Fp}
    (run : Exec (System.Step .durable policy.configuredChats fingerprint) (System.empty time) es s₀)
    (later : Exec (System.Step .durable policy.configuredChats fingerprint) s₀ es' s)
    (call : (classifyOwn policy chat actual messageId).Runs
      (Answers .durable policy.configuredChats fingerprint P) s (.ok answer) t) :
    ((∃ home ∈ policy.configuredChats, ∃ a, ConfirmedAt home a actual messageId s₀) ∨
        Marked actual messageId s₀ → answer ≠ .manual) ∧
      (∀ home ∈ policy.configuredChats, ∀ a, (∀ x, P x → UnsettledAt home a actual x) → P s →
        answer = .uncertain) := by
  constructor
  · rintro hbefore rfl
    obtain ⟨hleased, hjournalled⟩ := run_journalled (exec_store run)
    obtain ⟨u, v, hfirst, hindexed⟩ := journalClassifyOwn_manual call
    -- The first reading found nothing, so a marker has the send before the lookup.
    have hmarked : Marked actual messageId u := by
      obtain ⟨home, hhome, a, hconfirmed⟩ | hmarked := hbefore
      · have hs₀ : Evidence home a actual messageId s₀ := ⟨hleased, hjournalled, .inl hconfirmed⟩
        have hs : Evidence home a actual messageId s :=
          later.invariant hs₀ fun _ _ _ hx hstep => evidence_step hstep hx
        exact ownChats_none hhome hs (ownMutation_ok hfirst)
      · have hs : Marked actual messageId s :=
          later.invariant hmarked fun _ _ _ hx hstep => marked_step hstep hx
        exact hfirst.invariant hs fun _ _ _ _ hanswer hm =>
          hanswer.invariant hm fun _ _ _ => marked_step
    exact indexClassifyOwn_marked hmarked hindexed rfl
  · intro home hhome a hheld hs
    unfold classifyOwn journalClassifyOwn at call
    obtain ⟨first, u, hfirst, hrest⟩ := Prog.runs_bind_ok.mp call
    obtain rfl := ownChats_unsettled hhome hheld hs (ownMutation_ok hfirst)
    cases hrest.1
    rfl

end Classify

/-! ## A sample call -/

/-- A read at the present time leaves the system as it is. -/
theorem step_read (s : System Fp) {chat : String} (hchat : chat ∈ chats) {op : Op Fp}
    (hop : op = .read ∨ op = .journalList) :
    System.Step .durable chats fingerprint s
      (some (⟨chat, op, .frozen s.store.time⟩,
        (op.run (.frozen s.store.time) (s.store.keys chat)).1)) s := by
  have hcall : Store.Step chats fingerprint s.store
      (some (⟨chat, op, .frozen s.store.time⟩,
        (op.run (.frozen s.store.time) (s.store.keys chat)).1))
      (s.store.write chat (s.store.keys chat) s.store.time) := by
    obtain rfl | rfl := hop
    · exact .call ⟨hchat, trivial⟩ (le_refl _) (fun _ => le_refl _) rfl
    · exact .call ⟨hchat, trivial⟩ (le_refl _) (fun _ => le_refl _) rfl
  rw [Store.write_keys] at hcall
  have hstep := System.Step.client (D := .durable) (s := s) hcall fun c r heq => by
    cases heq
    obtain rfl | rfl := hop
    · exact ⟨id, trivial⟩
    · exact ⟨id, trivial⟩
  obtain rfl | rfl := hop
  · simpa [completionOf, observe] using hstep
  · simpa [completionOf, observe] using hstep

/-- A world that stands still answers the reads of `classifyOwn`. -/
def respond (chats : List String) (s : System Fp) : (q : Query Fp) → q.Answer × System Fp
  | .script chat .read =>
    (if chat ∈ chats then .ok (Op.read.run (.frozen s.store.time) (s.store.keys chat)).1
      else .error .policyDenied, s)
  | .script chat .journalList =>
    (if chat ∈ chats then .ok (Op.journalList.run (.frozen s.store.time) (s.store.keys chat)).1
      else .error .policyDenied, s)
  | .script _ _ => (.error .storeUnavailable, s)
  | .proofs => (.ok s.markers, s)

theorem answers_respond (chats : List String) (fingerprint : NotificationV2 → Fp) (s : System Fp)
    (q : Query Fp) : Answers .durable chats fingerprint (fun _ => True) s q (respond chats s q).1
      (respond chats s q).2 := by
  unfold respond
  split
  · next chat =>
    split
    · next hchat => exact .script .refl (step_read s hchat (.inl rfl)) trivial .refl
    · exact .broken .refl
  · next chat =>
    split
    · next hchat => exact .script .refl (step_read s hchat (.inr rfl)) trivial .refl
    · exact .broken .refl
  · exact .broken .refl
  · exact .proofs .refl (fun _ => id) fun _ => id

/-- One group is admitted. -/
def samplePolicy : AdmissionPolicy := ⟨["1@g.us"], []⟩

/-- An attempt to send to the group. -/
def sampleReply : JournalEnvelope NotificationV2 :=
  { sampleAttempt with
    state := { sampleAttempt.state with tool := "send_group_message", destination := "1@g.us" } }

/-- The worker of the sample event sends a message to the group, and the journal
has it confirmed; a call of `classifyOwn` then finds it. -/
theorem sampleSend : ∃ es s,
    Exec (System.Step .durable samplePolicy.configuredChats id) (System.empty 0) es s ∧
      ConfirmedAt "1@g.us" "attempt-1" "1@g.us" "message-1" s ∧
      ((classifyOwn samplePolicy "1@g.us" "1@g.us" "message-1").eval
        (respond samplePolicy.configuredChats) s).1 = .ok .confirmed := by
  obtain ⟨es, h₁⟩ := sampleClaimed_reached
  have h₂ := exec_client h₁ "1@g.us" 5 (.beginTurn sampleWork)
    ⟨List.mem_singleton.mpr rfl, trivial⟩ (by decide) ⟨id, trivial⟩
  have h₃ := exec_client h₂ "1@g.us" 6 (.bind sampleWork sampleSession)
    ⟨List.mem_singleton.mpr rfl, trivial⟩ (by decide) ⟨id, trivial⟩
  have h₄ := exec_client h₃ "1@g.us" 7
    (.nativeJournalBegin sampleWork "attempt-1" sampleReply sampleSession)
    ⟨List.mem_singleton.mpr rfl, ⟨rfl, rfl, rfl, rfl⟩⟩ (by decide) ⟨id, trivial⟩
  have h₅ := exec_client h₄ "1@g.us" 8
    (.journalTransition sampleWork "attempt-1" (.confirmed "message-1" "2026-01-01T00:00:04Z"))
    ⟨List.mem_singleton.mpr rfl, trivial⟩ (by decide) ⟨id, trivial⟩
  exact ⟨_, _, h₅, ⟨_, rfl, rfl, rfl, rfl⟩, rfl⟩

theorem reported_send_not_manual_of_sampleSend : ∃ s t : System NotificationV2,
    ConfirmedAt "1@g.us" "attempt-1" "1@g.us" "message-1" s ∧
      (classifyOwn samplePolicy "1@g.us" "1@g.us" "message-1").Runs
        (Answers .durable samplePolicy.configuredChats id fun _ => True) s (.ok .confirmed) t ∧
      Classification.confirmed ≠ .manual := by
  obtain ⟨es, s, run, hconfirmed, heval⟩ := sampleSend
  have call := Prog.eval_runs (P := fun _ => True)
    (fun s q _ => ⟨answers_respond samplePolicy.configuredChats id s q, trivial⟩)
    (classifyOwn samplePolicy "1@g.us" "1@g.us" "message-1") (s := s) trivial
  rw [heval] at call
  exact ⟨s, _, hconfirmed, call, (reported_send_not_manual run .nil call).1
    (.inl ⟨"1@g.us", List.mem_singleton.mpr rfl, "attempt-1", hconfirmed⟩)⟩

end WhatsAppMcp.Controller.Pi
