import WhatsAppMcp.Controller.Scheduler.Progress

/-!
# At most one turn for an event

`begin-turn` is the only way into the run of the turn ports, and the ledger of
the store starts no event twice.  Between its `begin-turn` and its prompt a
worker is armed; it holds the only permission to prompt for its event, and the
prompt uses it up.

* `Worker.Step.cases_turn`: what a step of a worker does to its permission.
* `pool_turns`: the law of permissions in every run.
* `located_run`: a worker on its way to the prompt was in a lookup that found
  nothing.
-/

namespace WhatsAppMcp.Controller.Scheduler

open Redis
open Trace (Exec)

variable {Fp : Type} [DecidableEq Fp] {D : Discipline Fp} {chats : List String}
  {fingerprint : NotificationV2 → Fp} {i : Nat} {s t : System Fp} {w w' : Worker Fp} {d : Deed Fp}

/-! ## The calls of a run -/

/-- The label of a deed that is not a prompt. -/
def Deed.call? : Deed Fp → Option (Label Fp)
  | .call l => some l
  | .prompt .. => none

/-- The labels of a run of the pool. -/
def calls (ds : List (Deed Fp)) : List (Label Fp) := ds.filterMap Deed.call?

/-- A move that does not reach the system. -/
theorem stutter (s : System Fp) : System.Step D chats fingerprint s none s := by
  have hstep : System.Step D chats fingerprint s none
      { s with completions := s.completions ++ completionOf fingerprint none } :=
    .client (.tick (le_refl s.store.time)) fun _ _ heq => nomatch heq
  simpa [completionOf] using hstep

theorem Calls.step {op : Op Fp} {r : Reply Fp} {work : ClaimedWork} {l : Label Fp}
    (h : Calls D chats fingerprint s work op r l t) (hop : ¬ op.Accepts) :
    System.Step D chats fingerprint s l t := by
  cases h with
  | mk hstep hready => exact .client hstep fun c r heq => by cases heq; exact ⟨hop, hready⟩

/-! ## Permission to prompt -/

/-- The stages inside `run` of the turn ports. -/
def Stage.InRun : Stage Fp → Prop
  | .callback _ | .prompt _ | .settle _ => True
  | _ => False

/-- The worker may prompt, now or later in this run of its turn ports. -/
def Worker.Armed (w : Worker Fp) : Prop :=
  w.prompted = false ∧ ∃ stage, w.pc.stage? = some stage ∧ stage.InRun

/-- A worker on its way to the prompt has not prompted. -/
def Worker.Sound (w : Worker Fp) : Prop :=
  ∀ opened, w.pc.stage? = some (.prompt opened) → w.prompted = false

/-- The label is a successful `begin-turn` of this event. -/
def Begins (fingerprint : NotificationV2 → Fp) (l : Label Fp) (id : String) : Prop :=
  ∃ chat v, Label.observation fingerprint l = some (chat, .begun v) ∧ v.eventId = id

omit [DecidableEq Fp] in
/-- Where the stage and the flag stay, so does the permission. -/
theorem Worker.armed_congr (hstage : w'.pc.stage? = w.pc.stage?)
    (hprompted : w'.prompted = w.prompted) :
    (w'.Armed ↔ w.Armed) ∧ (w'.Sound ↔ w.Sound) := by
  simp only [Worker.Armed, Worker.Sound, hstage, hprompted, and_self]

omit [DecidableEq Fp] in
/-- Outside the run of the turn ports there is no permission. -/
theorem Worker.unarmed (h : ∀ stage, w.pc.stage? = some stage → ¬ stage.InRun) :
    ¬ w.Armed ∧ w.Sound :=
  ⟨fun ⟨_, stage, hstage, hrun⟩ => h stage hstage hrun,
    fun _ hprompt => absurd trivial (h _ hprompt)⟩

/-- What a step does to the permission: a call gives it only by beginning the
turn, and a prompt uses it up. -/
structure Worker.Moves (D : Discipline Fp) (chats : List String)
    (fingerprint : NotificationV2 → Fp) (i : Nat) (s : System Fp) (w : Worker Fp) (d : Deed Fp)
    (t : System Fp) (w' : Worker Fp) : Prop where
  event : w'.work.event = w.work.event
  sound : w'.Sound
  turn : (∃ l, d = .call l ∧ System.Step D chats fingerprint s l t ∧
      (w'.Armed → w.Armed ∨ Begins fingerprint l w.work.event.eventId)) ∨
    d = .prompt i w.work.event ∧ t = s ∧ w.Armed ∧ ¬ w'.Armed

/-- A call that leads to a stage outside the run of the turn ports. -/
theorem Worker.Moves.outside {l : Label Fp} (hevent : w'.work.event = w.work.event)
    (hstep : System.Step D chats fingerprint s l t)
    (hstage : ∀ stage, w'.pc.stage? = some stage → ¬ stage.InRun) :
    Worker.Moves D chats fingerprint i s w (.call l) t w' :=
  ⟨hevent, (Worker.unarmed hstage).2,
    Or.inl ⟨l, rfl, hstep, fun harmed => absurd harmed (Worker.unarmed hstage).1⟩⟩

/-- A call on the way to the same stage. -/
theorem Worker.Moves.within {l : Label Fp} (hw : w.Sound) (hevent : w'.work.event = w.work.event)
    (hstep : System.Step D chats fingerprint s l t) (hstage : w'.pc.stage? = w.pc.stage?)
    (hprompted : w'.prompted = w.prompted) :
    Worker.Moves D chats fingerprint i s w (.call l) t w' := by
  obtain ⟨harmed, hsound⟩ := Worker.armed_congr hstage hprompted
  exact ⟨hevent, hsound.mpr hw, Or.inl ⟨l, rfl, hstep, fun h => Or.inl (harmed.mp h)⟩⟩

theorem Worker.Step.moves (h : Worker.Step D chats fingerprint i s w d t w') (hw : w.Sound) :
    Worker.Moves D chats fingerprint i s w d t w' := by
  cases h with
  | renew hpc _ hcall | check hpc hcall =>
    exact .within hw rfl (hcall.step id) (by rw [hpc]; rfl) rfl
  | heartbeat _ _ hcall => exact .within hw rfl (hcall.step id) rfl rfl
  | lose => exact .within hw rfl (stutter s) rfl rfl
  | readChat _ hcall | turnState _ hcall | bindSession _ _ _ hcall | complete _ hcall
  | pause _ hcall =>
    exact .outside rfl (hcall.step id) (by simp [WorkerPc.stage?, Stage.InRun])
  | append => exact .outside rfl (.append _) (by simp [WorkerPc.stage?, Stage.InRun])
  | beginTurn hpc hcall =>
    refine ⟨rfl, fun _ heq => (by cases heq), Or.inl ⟨_, rfl, hcall.step id, fun _ => ?_⟩⟩
    cases hcall with
    | mk => exact Or.inr ⟨_, _, rfl, rfl⟩
  | @callback opened hpc hfirst =>
    have harmed : w.Armed := ⟨hfirst, .callback opened, by rw [hpc]; rfl, trivial⟩
    exact ⟨rfl, fun _ _ => hfirst, Or.inl ⟨none, rfl, stutter s, fun _ => Or.inl harmed⟩⟩
  | @prompt opened hpc =>
    have hstage : w.pc.stage? = some (.prompt opened) := by rw [hpc]; rfl
    refine ⟨rfl, fun _ heq => (by cases heq),
      Or.inr ⟨rfl, rfl, ⟨hw _ hstage, _, hstage, trivial⟩, ?_⟩⟩
    rintro ⟨hprompted, -⟩
    cases hprompted
  | @again opened hpc =>
    have hstage : w.pc.stage? = some (.settle opened) := by rw [hpc]; rfl
    exact ⟨rfl, fun _ heq => (by cases heq), Or.inl ⟨none, rfl, stutter s, fun harmed =>
      Or.inl ⟨harmed.1, _, hstage, trivial⟩⟩⟩
  | _ => exact .outside rfl (stutter s) (by simp [WorkerPc.stage?, Stage.InRun])

/-! ## The law of permissions -/

/-- The event of a prompt. -/
def Deed.prompted? : Deed Fp → Option String
  | .call _ => none
  | .prompt _ event => some event.eventId

/-- The ids of the events that the agent was prompted for. -/
def prompts (ds : List (Deed Fp)) : List String := ds.filterMap Deed.prompted?

/-- The turn of the event has begun in the run. -/
def Begun (fingerprint : NotificationV2 → Fp) (ds : List (Deed Fp)) (id : String) : Prop :=
  ∃ l ∈ calls ds, Begins fingerprint l id

/-- Prompts come from begun turns, one each, and a permission is the only one
for its event. -/
structure Turns (fingerprint : NotificationV2 → Fp) (ds : List (Deed Fp)) (p : Pool Fp) : Prop where
  sound : ∀ i w, p.workers i = some w → w.Sound
  begun : ∀ id ∈ prompts ds, Begun fingerprint ds id
  armed : ∀ i w, p.workers i = some w → w.Armed →
    Begun fingerprint ds w.work.event.eventId ∧ w.work.event.eventId ∉ prompts ds
  unique : ∀ i j w v, p.workers i = some w → p.workers j = some v → w.Armed → v.Armed →
    w.work.event.eventId = v.work.event.eventId → i = j
  once : (prompts ds).Nodup

variable {ds : List (Deed Fp)} {p q : Pool Fp}

omit [DecidableEq Fp] in
theorem empty_turns (time : Nat) : Turns fingerprint [] (Pool.empty time : Pool Fp) where
  sound _ _ h := nomatch h
  begun _ h := nomatch h
  armed _ _ h := nomatch h
  unique _ _ _ _ h := nomatch h
  once := List.nodup_nil

omit [DecidableEq Fp] in
theorem Begun.append {id : String} (h : Begun fingerprint ds id) (d : Deed Fp) :
    Begun fingerprint (ds ++ [d]) id := by
  obtain ⟨l, hl, hbegins⟩ := h
  exact ⟨l, by rw [calls, List.filterMap_append]; exact List.mem_append_left _ hl, hbegins⟩

omit [DecidableEq Fp] in
theorem begun_last {l : Label Fp} {id : String} (h : Begins fingerprint l id) :
    Begun fingerprint (ds ++ [.call l]) id :=
  ⟨l, by simp [calls, Deed.call?], h⟩

omit [DecidableEq Fp] in
@[simp] theorem prompts_call (ds : List (Deed Fp)) (l : Label Fp) :
    prompts (ds ++ [.call l]) = prompts ds := by
  simp [prompts, Deed.prompted?]

omit [DecidableEq Fp] in
@[simp] theorem prompts_prompt (ds : List (Deed Fp)) (i : Nat) (event : NotificationV2) :
    prompts (ds ++ [.prompt i event]) = prompts ds ++ [event.eventId] := by
  simp [prompts, Deed.prompted?]

omit [DecidableEq Fp] in
/-- A call with which no worker gains a permission keeps the law. -/
theorem Turns.call (h : Turns fingerprint ds p) (l : Label Fp)
    (hsound : ∀ i w, q.workers i = some w → w.Sound)
    (harmed : ∀ i w, q.workers i = some w → w.Armed → ∃ v, p.workers i = some v ∧ v.Armed ∧
      v.work.event = w.work.event) :
    Turns fingerprint (ds ++ [.call l]) q where
  sound := hsound
  begun id hid := (h.begun id (by rwa [prompts_call] at hid)).append _
  armed i w hw hwarmed := by
    obtain ⟨v, hv, hvarmed, hevent⟩ := harmed i w hw hwarmed
    obtain ⟨hbegun, hprompt⟩ := h.armed i v hv hvarmed
    rw [prompts_call, ← hevent]
    exact ⟨hbegun.append _, hprompt⟩
  unique i j w v hw hv hwarmed hvarmed hid := by
    obtain ⟨w₀, hw₀, hw₀armed, hwevent⟩ := harmed i w hw hwarmed
    obtain ⟨v₀, hv₀, hv₀armed, hvevent⟩ := harmed j v hv hvarmed
    exact h.unique i j w₀ v₀ hw₀ hv₀ hw₀armed hv₀armed (by rw [hwevent, hvevent, hid])
  once := by rw [prompts_call]; exact h.once

omit [DecidableEq Fp] in
/-- The worker that begins the turn of its event gains the permission. -/
theorem Turns.begins (h : Turns fingerprint ds p) {l : Label Fp} (hworker : p.workers i = some w)
    (hevent : w'.work.event = w.work.event) (hsound : w'.Sound)
    (hbegins : Begins fingerprint l w.work.event.eventId)
    (hfresh : ¬ Begun fingerprint ds w.work.event.eventId) :
    Turns fingerprint (ds ++ [.call l]) (p.move i t w') where
  sound j v hv := by
    rcases Pool.move_cases hv with ⟨rfl, rfl⟩ | ⟨-, hv⟩
    · exact hsound
    · exact h.sound j v hv
  begun id hid := (h.begun id (by rwa [prompts_call] at hid)).append _
  armed j v hv hvarmed := by
    rw [prompts_call]
    rcases Pool.move_cases hv with ⟨rfl, rfl⟩ | ⟨-, hv⟩
    · rw [hevent]
      exact ⟨begun_last hbegins, fun hmem => hfresh (h.begun _ hmem)⟩
    · obtain ⟨hbegun, hprompt⟩ := h.armed j v hv hvarmed
      exact ⟨hbegun.append _, hprompt⟩
  unique j k v u hv hu hvarmed huarmed hid := by
    rcases Pool.move_cases hv with ⟨rfl, rfl⟩ | ⟨-, hv'⟩ <;>
      rcases Pool.move_cases hu with ⟨rfl, rfl⟩ | ⟨-, hu'⟩
    · rfl
    · rw [hevent] at hid
      exact absurd (hid ▸ (h.armed k u hu' huarmed).1) hfresh
    · rw [hevent] at hid
      exact absurd (hid ▸ (h.armed j v hv' hvarmed).1) hfresh
    · exact h.unique j k v u hv' hu' hvarmed huarmed hid
  once := by rw [prompts_call]; exact h.once

omit [DecidableEq Fp] in
/-- The worker that prompts uses its permission up. -/
theorem Turns.prompt (h : Turns fingerprint ds p) (hworker : p.workers i = some w)
    (harmed : w.Armed) (hsound : w'.Sound) (hspent : ¬ w'.Armed) :
    Turns fingerprint (ds ++ [.prompt i w.work.event]) (p.move i t w') where
  sound j v hv := by
    rcases Pool.move_cases hv with ⟨rfl, rfl⟩ | ⟨-, hv⟩
    · exact hsound
    · exact h.sound j v hv
  begun id hid := by
    rw [prompts_prompt] at hid
    rcases List.mem_append.mp hid with hid | hid
    · exact (h.begun id hid).append _
    · rw [List.mem_singleton.mp hid]
      exact (h.armed i w hworker harmed).1.append _
  armed j v hv hvarmed := by
    rcases Pool.move_cases hv with ⟨rfl, rfl⟩ | ⟨hj, hv⟩
    · exact absurd hvarmed hspent
    · obtain ⟨hbegun, hprompt⟩ := h.armed j v hv hvarmed
      refine ⟨hbegun.append _, ?_⟩
      rw [prompts_prompt]
      refine fun hmem => (List.mem_append.mp hmem).elim hprompt fun hid => hj ?_
      exact h.unique j i v w hv hworker hvarmed harmed (List.mem_singleton.mp hid)
  unique j k v u hv hu hvarmed huarmed hid := by
    rcases Pool.move_cases hv with ⟨rfl, rfl⟩ | ⟨-, hv⟩
    · exact absurd hvarmed hspent
    rcases Pool.move_cases hu with ⟨rfl, rfl⟩ | ⟨-, hu⟩
    · exact absurd huarmed hspent
    exact h.unique j k v u hv hu hvarmed huarmed hid
  once := by
    rw [prompts_prompt]
    refine List.nodup_append.mpr ⟨h.once, List.nodup_singleton _, ?_⟩
    rintro id hid _ hlast rfl
    exact (h.armed i w hworker harmed).2 (List.mem_singleton.mp hlast ▸ hid)

/-- A step of the pool keeps the law, if no turn begins twice. -/
theorem turns_step (h : Turns fingerprint ds p) (hstep : Pool.Step D chats fingerprint p d q)
    (hfresh : ∀ l id, d = .call l → Begins fingerprint l id → ¬ Begun fingerprint ds id) :
    Turns fingerprint (ds ++ [d]) q := by
  cases hstep with
  | @outside l t hbase => exact h.call l h.sound fun i w hw harmed => ⟨w, hw, harmed, rfl⟩
  | @start i work hidle =>
    have hrest : ¬ (Worker.initial work : Worker Fp).Armed ∧ (Worker.initial work : Worker Fp).Sound :=
      Worker.unarmed (by simp [Worker.initial, WorkerPc.stage?, Stage.InRun])
    refine h.call none (fun j v hv => ?_) fun j v hv hvarmed => ?_ <;>
      rcases Pool.move_cases hv with ⟨rfl, rfl⟩ | ⟨-, hv⟩
    · exact hrest.2
    · exact h.sound j v hv
    · exact absurd hvarmed hrest.1
    · exact ⟨v, hv, hvarmed, rfl⟩
  | @worker i w w' d t hworker hmove =>
    obtain ⟨hevent, hsound, ⟨l, rfl, -, hturn⟩ | ⟨rfl, rfl, harmed, hspent⟩⟩ :=
      hmove.moves (h.sound i w hworker)
    · by_cases hgain : w'.Armed → w.Armed
      · refine h.call l (fun j v hv => ?_) fun j v hv hvarmed => ?_ <;>
          rcases Pool.move_cases hv with ⟨rfl, rfl⟩ | ⟨-, hv⟩
        · exact hsound
        · exact h.sound j v hv
        · exact ⟨w, hworker, hgain hvarmed, hevent.symm⟩
        · exact ⟨v, hv, hvarmed, rfl⟩
      · obtain ⟨harmed', hnot⟩ := Classical.not_imp.mp hgain
        have hbegins := (hturn harmed').resolve_left hnot
        exact h.begins hworker hevent hsound hbegins (hfresh l _ rfl hbegins)
    · exact h.prompt hworker harmed hsound hspent

/-! ## Runs of the pool -/

/-- What a step does to the system beside the workers. -/
theorem base_step (hsound : ∀ i w, p.workers i = some w → w.Sound)
    (hstep : Pool.Step D chats fingerprint p d q) :
    (∃ l, d = .call l ∧ System.Step D chats fingerprint p.base l q.base) ∨
      (∃ i event, d = .prompt i event) ∧ q.base = p.base := by
  cases hstep with
  | outside hbase => exact Or.inl ⟨_, rfl, hbase⟩
  | start => exact Or.inl ⟨none, rfl, stutter _⟩
  | worker hworker hmove =>
    obtain ⟨-, -, ⟨l, rfl, hbase, -⟩ | ⟨rfl, rfl, -, -⟩⟩ := hmove.moves (hsound _ _ hworker)
    · exact Or.inl ⟨l, rfl, hbase⟩
    · exact Or.inr ⟨⟨_, _, rfl⟩, rfl⟩

omit [DecidableEq Fp] in
theorem entry_of_begins {l : Label Fp} {id : String} (h : Begins fingerprint l id) :
    ∃ chat, Label.entry? fingerprint l = some (.start chat id) := by
  obtain ⟨chat, v, hobs, rfl⟩ := h
  exact ⟨chat, by rw [Label.entry?, hobs]; rfl⟩

/-- No turn begins twice in a run of the system. -/
theorem begins_once {time : Nat} {l : Label Fp} {id : String}
    (h : Exec (System.Step .durable chats fingerprint) (System.empty time)
      (calls (ds ++ [.call l])) t) (hbegins : Begins fingerprint l id) :
    ¬ Begun fingerprint ds id := by
  rintro ⟨l', hl', hbegins'⟩
  obtain ⟨chat, hentry⟩ := entry_of_begins hbegins
  obtain ⟨chat', hentry'⟩ := entry_of_begins hbegins'
  have hlog : ledger fingerprint (calls (ds ++ [.call l])) =
      ledger fingerprint (calls ds) ++ .start chat id :: [] := by
    simp [calls, ledger, Deed.call?, hentry]
  exact (system_lawful (markers_complete h)).startOnce _ _ _ _ hlog chat'
    (List.mem_filterMap.mpr ⟨l', hl', hentry'⟩)

/-- Every run of the pool keeps the law of permissions, and is one of the system. -/
theorem pool_turns {time : Nat}
    (h : Exec (Pool.Step .durable chats fingerprint) (Pool.empty time) ds p) :
    Turns fingerprint ds p ∧
      Exec (System.Step .durable chats fingerprint) (System.empty time) (calls ds) p.base := by
  induction h with
  | nil => exact ⟨empty_turns time, .nil⟩
  | @snoc ds p q d run last ih =>
    obtain ⟨hturns, hbase⟩ := ih
    rcases base_step hturns.sound last with ⟨l, rfl, hstep⟩ | ⟨⟨i, event, rfl⟩, hsame⟩
    · have hrun : Exec (System.Step .durable chats fingerprint) (System.empty time)
          (calls (ds ++ [.call l])) q.base := by
        have hsnoc := hbase.snoc hstep
        rwa [calls, List.filterMap_append]
      refine ⟨turns_step hturns last fun l' id heq hbegins => ?_, hrun⟩
      cases heq
      exact begins_once hrun hbegins
    · refine ⟨turns_step hturns last fun l' id heq => (by cases heq), ?_⟩
      have hcalls : calls (ds ++ [.prompt i event]) = calls ds := by simp [calls, Deed.call?]
      rwa [hcalls, hsame]

/-! ## The lookup before a prompt -/

/-- The stages on the way from an empty lookup to the prompt. -/
def Stage.Unanswered : Stage Fp → Prop
  | .ownMutation _ | .turnState _ | .classifyOwn _ | .openSession .. | .bindSession ..
  | .hostAttach .. | .attach .. | .attached .. | .prepare _ | .beginTurn _
  | .callback _ | .prompt _ | .settle _ => True
  | _ => False

/-- What a step does to the lookup: a new one begins now, and the way to the
prompt starts with an empty one. -/
theorem Worker.Step.lookup (h : Worker.Step D chats fingerprint i s w d t w') :
    (∀ session since, w'.pc.stage? = some (.findEvent session since) →
      w.pc.stage? = some (.findEvent session since) ∨ since = t.since) ∧
    ∀ stage, w'.pc.stage? = some stage → stage.Unanswered →
      (∃ stage', w.pc.stage? = some stage' ∧ stage'.Unanswered) ∨
        ∃ session since, w.pc.stage? = some (.findEvent session since) ∧
          D.Absent s since w.work.event.canonicalChatJid w.work.event.eventId := by
  cases h with
  | renew hpc | check hpc =>
    rw [hpc]
    exact ⟨fun _ _ heq => Or.inl heq, fun stage heq hstage => Or.inl ⟨stage, heq, hstage⟩⟩
  | heartbeat | lose =>
    exact ⟨fun _ _ heq => Or.inl heq, fun stage heq hstage => Or.inl ⟨stage, heq, hstage⟩⟩
  | readChat hpc =>
    refine ⟨fun _ _ heq => Or.inr (by cases heq; rfl), fun stage heq hstage => ?_⟩
    cases heq
    cases hstage
  | absent hpc habsent =>
    exact ⟨fun _ _ heq => (by cases heq), fun _ _ _ => Or.inr ⟨_, _, by rw [hpc]; rfl, habsent⟩⟩
  | ownMutation hpc | turnState hpc | classifyOwn hpc | openSession _ hpc | bindSession hpc
  | hostAttach hpc | attach hpc | turn hpc | prepare hpc | beginTurn hpc | callback hpc
  | prompt hpc | again hpc =>
    rw [hpc]
    exact ⟨fun _ _ heq => (by cases heq), fun _ _ _ => Or.inl ⟨_, rfl, trivial⟩⟩
  | _ =>
    refine ⟨fun _ _ heq => (by cases heq), fun stage heq hstage => ?_⟩
    cases heq <;> cases hstage

variable {time : Nat} {event : NotificationV2}

/-- In the run there is a state in which worker `i` was in its lookup for the
event, since a moment at which `Q` held. -/
def LookedUp (chats : List String) (fingerprint : NotificationV2 → Fp) (time : Nat)
    (ds : List (Deed Fp)) (p : Pool Fp) (i : Nat) (event : NotificationV2)
    (Q : Pool Fp → Prop) : Prop :=
  ∃ fs gs u w session, ds = fs ++ gs ∧
    Exec (Pool.Step .durable chats fingerprint) (Pool.empty time) fs u ∧
    Exec (Pool.Step .durable chats fingerprint) u gs p ∧
    u.workers i = some w ∧ w.work.event = event ∧
    w.pc.stage? = some (.findEvent session u.base.since) ∧ Q u

/-- A later state has the lookups of an earlier one. -/
theorem LookedUp.snoc {Q Q' : Pool Fp → Prop}
    (h : LookedUp chats fingerprint time ds p i event Q)
    (hstep : Pool.Step .durable chats fingerprint p d q) (hQ : ∀ u, Q u → Q' u) :
    LookedUp chats fingerprint time (ds ++ [d]) q i event Q' := by
  obtain ⟨fs, gs, u, w, session, rfl, hfirst, hrest, hw, hevent, hstage, hu⟩ := h
  exact ⟨fs, gs ++ [d], u, w, session, by rw [List.append_assoc], hfirst, hrest.snoc hstep, hw,
    hevent, hstage, hQ _ hu⟩

omit [DecidableEq Fp] in
/-- A lookup that finds nothing speaks for the moment it began. -/
theorem unmarked_of_absent {u : System Fp} (hgrow : u.markers <+: s.markers)
    (habsent : Discipline.durable.Absent s u.since event.canonicalChatJid event.eventId) :
    Unmarked u event := by
  have htake : s.markers.take u.since.markers = u.markers :=
    (List.prefix_iff_eq_take.mp hgrow).symm
  intro m hm
  exact habsent m (htake ▸ hm)

/-- A worker in its lookup was there when the lookup began, and one on its way
to the prompt was in a lookup that found nothing. -/
structure Located (chats : List String) (fingerprint : NotificationV2 → Fp) (time : Nat)
    (ds : List (Deed Fp)) (p : Pool Fp) (i : Nat) (w : Worker Fp) : Prop where
  lookup : ∀ session since, w.pc.stage? = some (.findEvent session since) →
    LookedUp chats fingerprint time ds p i w.work.event
      fun u => since = u.base.since ∧ u.base.markers <+: p.base.markers
  way : ∀ stage, w.pc.stage? = some stage → stage.Unanswered →
    LookedUp chats fingerprint time ds p i w.work.event fun u => Unmarked u.base w.work.event

theorem Located.snoc (h : Located chats fingerprint time ds p i w)
    (hstep : Pool.Step .durable chats fingerprint p d q) (hgrow : p.base.markers <+: q.base.markers) :
    Located chats fingerprint time (ds ++ [d]) q i w where
  lookup session since hstage :=
    (h.lookup session since hstage).snoc hstep fun _ hu => ⟨hu.1, hu.2.trans hgrow⟩
  way stage hstage hway := (h.way stage hstage hway).snoc hstep fun _ hu => hu

theorem located_run (h : Exec (Pool.Step .durable chats fingerprint) (Pool.empty time) ds p)
    (hworker : p.workers i = some w) : Located chats fingerprint time ds p i w := by
  induction h generalizing w with
  | nil => cases hworker
  | @snoc ds p q d run last ih =>
    have hsound := (pool_turns run).1.sound
    have hgrow : p.base.markers <+: q.base.markers := by
      rcases base_step hsound last with ⟨l, -, hbase⟩ | ⟨-, hsame⟩
      · exact hbase.markers
      · exact hsame ▸ List.prefix_refl _
    have hrun := run.snoc last
    cases last with
    | outside hbase => exact (ih hworker).snoc (.outside hbase) hgrow
    | start work hidle =>
      rcases Pool.move_cases hworker with ⟨rfl, rfl⟩ | ⟨-, hbefore⟩
      · exact ⟨fun _ _ heq => (by cases heq), fun _ heq hway => (by cases heq; cases hway)⟩
      · exact (ih hbefore).snoc (.start work hidle) hgrow
    | @worker j v v' d t hv hmove =>
      have hstep := Pool.Step.worker (D := .durable) hv hmove
      rcases Pool.move_cases hworker with ⟨rfl, rfl⟩ | ⟨-, hbefore⟩
      · have hevent := (hmove.moves (hsound _ _ hv)).event
        obtain ⟨hlookup, hway⟩ := hmove.lookup
        constructor
        · rw [hevent]
          intro session since hstage
          rcases hlookup session since hstage with hstage' | rfl
          · exact ((ih hv).lookup session since hstage').snoc hstep
              fun u hu => ⟨hu.1, hu.2.trans hgrow⟩
          · exact ⟨_, [], _, w, session, (List.append_nil _).symm, hrun, .nil, hworker, hevent,
              hstage, rfl, List.prefix_refl _⟩
        · rw [hevent]
          intro stage hstage hunanswered
          rcases hway stage hstage hunanswered with
            ⟨stage', hstage', hunanswered'⟩ | ⟨session, since, hstage', habsent⟩
          · exact ((ih hv).way stage' hstage' hunanswered').snoc hstep fun _ hu => hu
          · refine ((ih hv).lookup session since hstage').snoc hstep fun u hu => ?_
            exact unmarked_of_absent hu.2 (hu.1 ▸ habsent)
      · exact (ih hbefore).snoc hstep hgrow

/-- In every run: no turn begins twice, the agent is not prompted twice for an
event, and each prompt is of a worker that was in a lookup for its event when
no marker of the event was durable. -/
theorem one_turn_per_event
    (h : Exec (Pool.Step .durable chats fingerprint) (Pool.empty time) ds p) :
    (∀ pre chat w post, observed fingerprint (calls ds) = pre ++ (chat, .begun w) :: post →
      ∀ other v, (other, .begun v) ∈ pre → v.eventId ≠ w.eventId) ∧
    (prompts ds).Nodup ∧
    ∀ pre i event post, ds = pre ++ .prompt i event :: post →
      ∃ u, LookedUp chats fingerprint time pre u i event fun u => Unmarked u.base event := by
  obtain ⟨hturns, hbase⟩ := pool_turns h
  refine ⟨fun pre chat w post hsplit other v hmem heq => ?_, hturns.once, ?_⟩
  · refine (system_lawful (markers_complete hbase)).startOnce _ _ _ _ (ledger_split hsplit rfl)
      other ?_
    exact List.mem_filterMap.mpr ⟨_, hmem, by rw [← heq]; rfl⟩
  · rintro pre i event post rfl
    obtain ⟨u, v, hrun, hstep, -⟩ := h.split_cons
    cases hstep with
    | worker hworker hmove =>
      cases hmove with
      | @prompt opened hpc =>
        exact ⟨u, (located_run hrun hworker).way (.prompt opened) (by rw [hpc]; rfl) trivial⟩

/-! ### The turn of a claimed event -/

/-- A run of the system is one of the pool in which no worker moves. -/
theorem exec_outside {es : List (Label Fp)} (workers : Nat → Option (Worker Fp)) (h : Exec (System.Step D chats fingerprint) s es t) :
    Exec (Pool.Step D chats fingerprint) ⟨s, workers⟩ (es.map .call) ⟨t, workers⟩ := by
  induction h with
  | nil => exact .nil
  | snoc _ last ih =>
    rw [List.map_append]
    exact ih.snoc (.outside last)

def sampleClaim : ClaimedWork where
  streamId := ⟨3, 0⟩
  event := sampleEvent
  ownership := ⟨⟨"app", "1", 102⟩, ⟨"worker", "1", 54⟩⟩

/-- The law at a run in which the agent is prompted. -/
theorem one_turn_per_event_of_sampleClaim : ∃ ds : List (Deed NotificationV2),
    sampleEvent.eventId ∈ prompts ds ∧ (prompts ds).Nodup := by
  obtain ⟨es, h⟩ := sampleClaimed_reached
  have hheld : Held 5 (argsFor id sampleClaim) (sampleEvent.chatSequence - 1) none none
      (sampleClaimed.store.keys "1@g.us") := ⟨⟨_, rfl⟩, rfl, rfl, rfl, rfl⟩
  have hopened : sampleSession.canonicalChatId = sampleClaim.event.canonicalChatJid := rfl
  obtain ⟨ds, q, hrun⟩ : ∃ ds q, Exec (Pool.Step .durable ["1@g.us"] id)
      ⟨sampleClaimed, fun _ => none⟩ (ds ++ [.prompt 0 sampleClaim.event]) q :=
    fresh_event_prompted rfl (List.mem_singleton.mpr rfl) (by decide) hheld hopened
      (fun _ hnone => by cases hnone) (fun m hm => by cases hm)
  have hall := (exec_outside (fun _ => none) h).append hrun
  refine ⟨_, ?_, (one_turn_per_event hall).2.1⟩
  rw [← List.append_assoc, prompts_prompt]
  exact List.mem_append_right _ (List.mem_singleton.mpr rfl)

end WhatsAppMcp.Controller.Scheduler
