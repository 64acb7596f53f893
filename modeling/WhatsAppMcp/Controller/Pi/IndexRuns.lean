import WhatsAppMcp.Controller.Pi.IndexAlone
import WhatsAppMcp.Controller.Pi.Lookups
import WhatsAppMcp.Controller.Redis.Accept

/-!
# Lookups beside completions

The calls of the completion index in any interleaving, with the writers of the session
files and across restarts.

* `rebuild_bounds`: what `rebuild` comes to lies between what was durable when it began and
  what is durable when it ends.
* `findEvent_disciplined`: a lookup answers as the intake assumes of it.
* `completion_found`: what `appendCompletion` has returned is found after every crash.
* `held_by_running`: only a call that is on its way holds the file-only interval or a
  reservation.
-/

namespace WhatsAppMcp.Controller.Pi.FileIndex

open Calls

variable {env : Runtime} {root : String} {canonical : List String} {i : Nat} {s t w : World}
  {p : Process} {es : List (Option Nat)}

/-! ## What each call comes to -/

/-- What a value of a call that began in `s` says of the world `t`. -/
def Meets (env : Runtime) (canonical : List String) : Call → World → Value → World → Prop
  | .findEvent chat id, s, .found v, t => ∃ all, Rebuilt env canonical s t all ∧
      v = all.find? fun p => p.marker.canonicalChatId = chat && p.marker.eventId = id
  | .rebuild, s, .proofs all, t => Rebuilt env canonical s t all
  | .evidence binding, s, .proofs ps, t =>
      (∀ p, Durable env s p → p.session.sessionFile = binding.sessionFile → p ∈ ps) ∧
        ∀ p ∈ ps, Durable env t p
  | .appendCompletion binding marker, _, .completed p, t =>
      Completed env binding.sessionFile marker p t
  | .invalidate _, _, .invalidated, _ => True
  | _, _, _, _ => False

/-- A call is clear when it ends, and its value is what it should be. -/
def Answered (env : Runtime) (canonical : List String) (i : Nat) (call : Call) (s : World)
    (r : Except ErrorClass Value) (t : World) : Prop :=
  Clear i t ∧ ∀ v, r = .ok v → Meets env canonical call s v t

/-- The value of a program, in the form that a call gives it. -/
theorem Ends.value {α : Type} {job : Job α} {post : α → World → Prop} {f : α → Value}
    {call : Call} (h : Ends env i job s post)
    (hmeets : ∀ a t u, post a t → Rely env i t u → Meets env canonical call s (f a) u) :
    (job >>= fun a => pure (f a)).Keeps (contract env i) (Answered env canonical i call s) s :=
  h.bind fun a t hclear hpost => ends_pure hclear fun u hu => hmeets a t u hpost hu

theorem program_keeps (call : Call) (hs : s.Sound env) (hclear : Clear i s) :
    (program env root canonical i call).Keeps (contract env i) (Answered env canonical i call s) s := by
  cases call with
  | findEvent chat id =>
    refine (findEvent_ends hs hclear).value fun v t u h htu => ?_
    obtain ⟨all, hall, hv⟩ := h
    exact ⟨all, hall.grows htu.grows, hv⟩
  | rebuild => exact (rebuild_ends hs hclear).value fun all t u h htu => h.grows htu.grows
  | evidence binding =>
    refine (evidence_ends hs hclear).value fun ps t u h htu => ?_
    exact ⟨h.1, fun p hp => (h.2 p hp).grows htu.grows⟩
  | appendCompletion binding marker =>
    exact (appendCompletion_ends hs hclear).value fun p t u h htu => h.grows htu.grows
  | invalidate binding =>
    refine (ends_quiet hclear (ask_quiet fun t a u _ h => ?_)).value fun _ _ _ _ _ => trivial
    cases h
    exact quiet_poison

/-- The calls and the writers fit together. -/
theorem process_sound :
    Team.Sound Moves (program env root canonical) (contract env) (World.Sound env) Clear
      (Answered env canonical) where
  moves_rely _ _ _ h := (quiet_moves h).rely
  guar_rely _ _ _ _ hj h := Guar.rely h hj
  moves_inv _ _ hs h := (quiet_moves h).sound hs
  guar_inv _ _ _ hs h := Guar.sound h hs
  rely_fresh _ _ _ h hs := hs.rely h
  keeps _ call _ hs hclear := program_keeps call hs hclear

theorem Runs.kept (h : Runs env root canonical s es p) :
    p.Kept (contract env) (World.Sound env) Clear (Answered env canonical) := by
  refine process_sound.kept (fun _ _ h => by cases h) (fun i => ⟨fun h => ?_, fun _ h => ?_⟩) h
  · cases h
  · cases h

theorem Runs.ended {call : Call} {v : Value} (h : Runs env root canonical w es p)
    (htask : p.tasks i = some ⟨call, s, .done v⟩) : Meets env canonical call s v p.world :=
  (h.kept.ended htask).2 v rfl

/-- Since the process started the world has only grown, also up to where a call began. -/
theorem Runs.start_grows {task : Task World Call Query Query.Answer ErrorClass Value}
    (h : Runs env root canonical w es p) (htask : p.tasks i = some task) :
    w.restarted.Grows task.start := by
  have hempty : (⟨w.restarted, fun _ => none⟩ : Process).Kept (contract env) (World.Sound env) Clear
      (Answered env canonical) := (show Runs env root canonical w [] _ from .nil).kept
  refine (process_sound.started World.Grows .refl (fun hst htu => hst.trans htu) ?_ ?_ hempty h).2 i
    task rfl htask
  · exact fun s t hst => (show Quiet env s t from quiet_moves hst).grows
  · exact fun i s t hst => Guar.grows hst

/-! ## Lookups -/

/-- A proof of the file as the intake has it. -/
def toProof (q : StoredProof) : CompletionProof String :=
  ⟨q.marker.eventId, q.marker.eventFingerprint, q.marker.canonicalChatId, q.marker.chatSequence,
    q.marker.confirmedSends, q.entryId, q.session⟩

theorem Durable.own {q : StoredProof} (h : Durable env s q) :
    q.marker.canonicalChatId = q.session.canonicalChatId := by
  obtain ⟨f, n, ps, -, -, hps, hq⟩ := h
  exact (evidenceOf_own hps q hq).2

/-- A lookup that finds nothing may find nothing: no marker that was durable when it began is of
this event.  One that finds something has found a durable marker of this event. -/
theorem findEvent_disciplined {chat id : String} {v : Value} (hrun : Runs env root canonical w es p)
    (htask : p.tasks i = some ⟨.findEvent chat id, s, .done v⟩) :
    (v = .found none ∧ ∀ (sys : Redis.System String) (since : Redis.Since),
        (∀ m ∈ sys.markers.take since.markers, ∃ q, Marked env canonical s q ∧ m = toProof q) →
        Redis.Discipline.durable.Absent sys since chat id) ∨
      ∃ q, v = .found (some q) ∧ Redis.VerifiedProof (toProof q) chat id ∧ Durable env p.world q := by
  have hmeets := hrun.ended htask
  cases v with
  | found answer =>
    obtain ⟨all, hall, rfl⟩ := hmeets
    cases hfind : all.find? fun q => q.marker.canonicalChatId = chat && q.marker.eventId = id with
    | none =>
      left
      refine ⟨rfl, fun sys since hmarkers m hm hsame => ?_⟩
      obtain ⟨q, hq, rfl⟩ := hmarkers m hm
      have hsame : q.marker.canonicalChatId = chat ∧ q.marker.eventId = id := hsame
      apply List.find?_eq_none.mp hfind q (hall.complete q hq)
      simpa using hsame
    | some q =>
      right
      have hdurable := hall.durable q (List.mem_of_find?_eq_some hfind)
      have hsame : q.marker.canonicalChatId = chat ∧ q.marker.eventId = id := by
        simpa using List.find?_some hfind
      exact ⟨q, rfl, ⟨hsame.1, hdurable.own ▸ hsame.1, hsame.2⟩, hdurable⟩
  | proofs | completed | invalidated => cases hmeets

open SampleIndex in
theorem findEvent_disciplined_of_sampleFile : ∃ es p v,
    Runs runtime "/s" ["49@g.us"] completedWorld es p ∧
      p.tasks 0 = some ⟨.findEvent "49@g.us" marker.eventId, completedWorld.restarted, .done v⟩ ∧
      ((v = .found none ∧ ∀ (sys : Redis.System String) (since : Redis.Since),
        (∀ m ∈ sys.markers.take since.markers, ∃ q,
          Marked runtime ["49@g.us"] completedWorld.restarted q ∧ m = toProof q) →
        Redis.Discipline.durable.Absent sys since "49@g.us" marker.eventId) ∨
      ∃ q, v = .found (some q) ∧ Redis.VerifiedProof (toProof q) "49@g.us" marker.eventId ∧
        Durable runtime p.world q) := by
  obtain ⟨es, p, hrun, htask⟩ := finds (s := completedWorld) world_bindings world_files rfl
  exact ⟨es, p, _, hrun, htask, findEvent_disciplined hrun htask⟩

/-! ## Completions -/

theorem Durable.crashes {q : StoredProof} (h : Durable env s q) (hcrash : Crashes s t) :
    Durable env t q := by
  obtain ⟨f, n, ps, hf, hn, hps, hq⟩ := h
  obtain ⟨g, hg, hcontent, hstable⟩ := hcrash.files _ f hf
  refine ⟨g, n, ps, hg, hn.trans hstable, ?_, hq⟩
  obtain ⟨more, hmore⟩ := hcontent
  have hlength : n ≤ (f.content.take f.stable).length := by
    have := f.stable_le
    rw [List.length_take]
    omega
  rw [← hmore, List.take_append_of_le_length hlength, List.take_take, Nat.min_eq_left hn]
  exact hps

/-- A completion that `appendCompletion` has returned is what every lookup of its event finds
after a crash. -/
theorem completion_found {binding : SessionBinding} {marker : StoredMarker} {v v' : Value}
    {chat : String} {w' s' : World} {es' : List (Option Nat)} {p' : Process} {j : Nat}
    (hrun : Runs env root canonical w es p)
    (htask : p.tasks i = some ⟨.appendCompletion binding marker, s, .done v⟩)
    (hchat : chat ∈ canonical) (hbound : p.world.bindings chat = some binding)
    (hcrash : Crashes p.world w') (hrun' : Runs env root canonical w' es' p')
    (htask' : p'.tasks j = some ⟨.findEvent marker.canonicalChatId marker.eventId, s', .done v'⟩) :
    ∃ q, v = .completed q ∧ q.marker = marker ∧ v' = .found (some q) := by
  have hmeets := hrun.ended htask
  have hmeets' := hrun'.ended htask'
  cases v with
  | found | proofs | invalidated => cases hmeets
  | completed q =>
    cases v' with
    | proofs | completed | invalidated => cases hmeets'
    | found answer =>
      obtain ⟨all, hall, rfl⟩ := hmeets'
      refine ⟨q, rfl, hmeets.marker, ?_⟩
      have hgrows : w'.restarted.Grows s' := hrun'.start_grows htask'
      have hcrash' : Crashes p.world w'.restarted := ⟨hcrash.files, hcrash.bindings⟩
      have hkept := hmeets.durable.crashes hcrash'
      have hmarked : Marked env canonical s' q := by
        refine ⟨hkept.grows hgrows, chat, hchat, binding, ?_, hmeets.file⟩
        exact hgrows.bindings _ _ (hcrash.bindings _ _ hbound)
      have hq := hall.complete q hmarked
      cases hfind : all.find? fun x =>
          x.marker.canonicalChatId = marker.canonicalChatId && x.marker.eventId = marker.eventId with
      | none =>
        have := List.find?_eq_none.mp hfind q hq
        simp [hmeets.marker] at this
      | some x =>
        -- No two proofs are of one event.
        have hx : x.marker.canonicalChatId = marker.canonicalChatId ∧
            x.marker.eventId = marker.eventId := by simpa using List.find?_some hfind
        have hsame : x.marker.eventId = q.marker.eventId := hx.2.trans (hmeets.marker ▸ rfl)
        have hxq := List.inj_on_of_nodup_map hall.unique (List.mem_of_find?_eq_some hfind) hq hsame
        rw [hxq]

open SampleIndex in
theorem completion_found_of_sampleFile : ∃ es p es' p' v v',
    Runs runtime "/s" ["49@g.us"] (world file) es p ∧
      p.tasks 0 = some ⟨.appendCompletion SampleFile.binding marker, (world file).restarted, .done v⟩ ∧
    Runs runtime "/s" ["49@g.us"] p.world es' p' ∧
      p'.tasks 0 = some ⟨.findEvent "49@g.us" marker.eventId, p.world.restarted, .done v'⟩ ∧
    ∃ q, v = .completed q ∧ q.marker = marker ∧ v' = .found (some q) := by
  obtain ⟨es, p, hrun, htask, hbound, f, hfile, hcontent⟩ := completes
  obtain ⟨es', p', hrun', htask'⟩ := finds hbound hfile hcontent
  have hcrash : Crashes p.world p.world :=
    ⟨fun _ g hg => ⟨g, hg, List.take_prefix .., le_refl _⟩, fun _ _ hb => hb⟩
  exact ⟨es, p, es', p', _, _, hrun, htask, hrun', htask',
    completion_found hrun htask (List.mem_singleton_self _) hbound hcrash hrun' htask'⟩

/-- Only a call that is on its way holds the file-only interval or a reservation. -/
theorem held_by_running (hrun : Runs env root canonical w es p)
    (hheld : p.world.lock = some i ∨ ∃ path, (path, i) ∈ p.world.index.pending) :
    ∃ call s q next, p.tasks i = some ⟨call, s, .ask q next⟩ := by
  have hkept := hrun.kept
  have hnot : ¬ Clear i p.world := fun hclear => by
    obtain hlock | ⟨path, hpending⟩ := hheld
    · exact hclear.lock hlock
    · exact hclear.pending _ hpending rfl
  cases htask : p.tasks i with
  | none => exact absurd (hkept.idle i htask) hnot
  | some task =>
    obtain ⟨call, s, rest⟩ := task
    cases rest with
    | done v => exact absurd (hkept.ended htask).1 hnot
    | fail e => exact absurd (hkept.thrown htask).1 hnot
    | ask q next => exact ⟨call, s, q, next, rfl⟩

open SampleIndex in
/-- A lookup that has entered the file-only interval. -/
theorem held_by_running_of_sampleFile : ∃ es p,
    Runs runtime "/s" ["49@g.us"] (world file) es p ∧ p.world.lock = some 0 ∧
      ∃ call s q next, p.tasks 0 = some ⟨call, s, .ask q next⟩ := by
  have hstart : Team.Step Moves Does (program runtime "/s" ["49@g.us"])
      ⟨(world file).restarted, fun _ => none⟩ (some 0) _ := .start (.evidence SampleFile.binding) rfl
  have hrun := (Trace.Exec.single hstart).snoc
    (.ask (i := 0) (q := .enter) (t := { (world file).restarted with lock := some 0 }) rfl
      (.enter rfl))
  exact ⟨_, _, hrun, rfl, held_by_running hrun (.inl rfl)⟩

end WhatsAppMcp.Controller.Pi.FileIndex
