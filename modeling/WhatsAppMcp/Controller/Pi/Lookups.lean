import WhatsAppMcp.Controller.Pi.IndexLaws
import WhatsAppMcp.Controller.Redis.Accept

/-!
# What the calls keep

Each call of the completion index keeps its contract, and its end says what the others may
not undo.

* `exclusive_keeps`: a job in the file-only interval finds the interval its own, and leaves it
  however it ends.
* `rebuild_ends`, `findEvent_ends`, `evidence_ends`: a lookup has what was durable when it
  began, and nothing that is not durable when it ends.
* `appendCompletion_ends`: what is returned is durable, and no reservation outlives the call.
-/

namespace WhatsAppMcp.Controller.Pi.FileIndex

open Calls

variable {env : Runtime} {root path : String} {canonical : List String} {i : Nat} {s t u : World}
  {binding : SessionBinding} {marker : StoredMarker} {ps : List StoredProof} {α β : Type}

/-! ## What was seen -/

theorem Seen.file (h : Seen env i path ps s t) : ∀ p ∈ ps, p.session.sessionFile = path := by
  intro p hp
  obtain ⟨u, f, b, -, -, -, hb, hps, -⟩ := h
  rw [(evidenceOf_own hps p hp).1, hb]

theorem Seen.durable (h : Seen env i path ps s t) : ∀ p ∈ ps, Durable env t p := by
  intro p hp
  obtain ⟨u, f, b, -, hut, hfile, hb, hps, hstored⟩ := h
  obtain ⟨hsession, -⟩ := evidenceOf_own hps p hp
  obtain ⟨g, hg, hlength⟩ := hstored
  obtain ⟨g', hg', hgrows⟩ := hut.grows.files path f hfile
  obtain rfl := Option.some.inj (hg.symm.trans hg')
  refine ⟨g, f.content.length, ps, ?_, hlength, ?_, hp⟩
  · rw [hsession, hb]
    exact hg
  · rw [hgrows.take (le_refl _), List.take_length, hsession]
    exact hps

/-- What a pass over some rows has come to. -/
structure Collected (env : Runtime) (rows : List (String × Option SessionBinding)) (s t : World)
    (all : List StoredProof) : Prop where
  complete : ∀ chat b, (chat, some b) ∈ rows → ∀ p, Durable env s p →
    p.session.sessionFile = b.sessionFile → p ∈ all
  durable : ∀ p ∈ all, Durable env t p
  /-- Each proof was shown by a file that was not reserved then. -/
  unreserved : ∀ p ∈ all, ∃ u ps, s.Grows u ∧ u.Grows t ∧
    Shows env u p.session.sessionFile ps ∧ p ∈ ps ∧ u.index.isPending p.session.sessionFile = false
  clean : ∀ chat b, (chat, some b) ∈ rows → b.sessionFile ∉ s.index.poisoned

theorem Collected.nil : Collected env [] s t [] where
  complete _ _ hrow := by cases hrow
  durable _ hp := by cases hp
  unreserved _ hp := by cases hp
  clean _ _ hrow := by cases hrow

/-- What a pass has come to may be seen from an earlier world and from a later one. -/
theorem Collected.widen {rows : List (String × Option SessionBinding)} {all : List StoredProof}
    {s' t' : World} (h : Collected env rows s t all) (hs : s'.Grows s) (ht : t.Grows t') :
    Collected env rows s' t' all where
  complete chat b hrow p hp hpath := h.complete chat b hrow p (hp.grows hs) hpath
  durable p hp := (h.durable p hp).grows ht
  unreserved p hp := by
    obtain ⟨u, ps, hsu, hut, hrest⟩ := h.unreserved p hp
    exact ⟨u, ps, hs.trans hsu, hut.trans ht, hrest⟩
  clean chat b hrow hp := h.clean chat b hrow (hs.poisoned _ hp)

theorem Collected.append {rows rows' : List (String × Option SessionBinding)}
    {all more : List StoredProof} (h : Collected env rows s t all)
    (h' : Collected env rows' s t more) : Collected env (rows ++ rows') s t (all ++ more) where
  complete chat b hrow p hp hpath := by
    obtain hrow | hrow := List.mem_append.mp hrow
    · exact List.mem_append_left _ (h.complete chat b hrow p hp hpath)
    · exact List.mem_append_right _ (h'.complete chat b hrow p hp hpath)
  durable p hp := by
    obtain hp | hp := List.mem_append.mp hp
    · exact h.durable p hp
    · exact h'.durable p hp
  unreserved p hp := by
    obtain hp | hp := List.mem_append.mp hp
    · exact h.unreserved p hp
    · exact h'.unreserved p hp
  clean chat b hrow := by
    obtain hrow | hrow := List.mem_append.mp hrow
    · exact h.clean chat b hrow
    · exact h'.clean chat b hrow

/-- One row, whose file was not reserved when the file-only interval had been entered. -/
theorem Seen.collected {chat : String} (h : Seen env i binding.sessionFile ps s t)
    (hlock : s.lock = some i) (hpending : s.index.isPending binding.sessionFile = false)
    (hclean : binding.sessionFile ∉ s.index.poisoned) :
    Collected env [(chat, some binding)] s t ps := by
  have hdurable := h.durable
  obtain ⟨u, f, b, hsu, hut, hfile, hb, hps, -⟩ := h
  have hshows : Shows env u binding.sessionFile ps := ⟨f, b, hfile, hb, hps⟩
  refine ⟨fun chat' b' hrow p hp hpath => ?_, hdurable, fun p hp => ?_, fun chat' b' hrow => ?_⟩
  · obtain ⟨-, rfl⟩ : chat' = chat ∧ b' = binding := by simpa using hrow
    exact Shows.complete (hpath ▸ hshows) hp hsu.grows
  · have hpath : p.session.sessionFile = binding.sessionFile := by
      rw [(evidenceOf_own hps p hp).1, hb]
    refine ⟨u, ps, hsu.grows, hut.grows, hpath ▸ hshows, hp, ?_⟩
    rw [hpath]
    by_contra hreserved
    obtain ⟨r, hr, hrpath⟩ := List.any_eq_true.mp (Bool.not_eq_false _ ▸ hreserved)
    have := List.any_eq_false.mp hpending r (hsu.calm hlock r hr)
    exact this hrpath
  · obtain ⟨-, rfl⟩ : chat' = chat ∧ b' = binding := by simpa using hrow
    exact hclean

theorem collect_gives {rows : List (String × Option SessionBinding)} {all : List StoredProof}
    (hs : s.Sound env) (hlock : s.lock = some i) (hall : (all.map fun p => p.marker.eventId).Nodup) :
    (collect env root rows all).Gives (quiet env i) s fun result t =>
      (result.map fun p => p.marker.eventId).Nodup ∧
        ∃ more, result = all ++ more ∧ Collected env rows s t more := by
  induction rows generalizing s all with
  | nil =>
    exact Prog.gives_pure fun t ht => ⟨hall, [], (List.append_nil all).symm, .nil⟩
  | cons row rows ih =>
    obtain ⟨chat, binding | binding⟩ := row
    · refine (ih hs hlock hall).imp fun result t h => ?_
      obtain ⟨hunique, more, hresult, hmore⟩ := h
      refine ⟨hunique, more, hresult, ⟨fun chat' b hrow => ?_, hmore.durable, hmore.unreserved,
        fun chat' b hrow => ?_⟩⟩
      · exact hmore.complete chat' b (by simpa using hrow)
      · exact hmore.clean chat' b (by simpa using hrow)
    · unfold collect
      refine (ask_reads fun t a u h => by cases h; rfl).bind fun pending s₁ hmid => ?_
      obtain ⟨u, hsu, hdoes, hus₁⟩ := hmid
      cases hdoes
      split
      · exact Prog.gives_throw
      · next hfree =>
        have hu : u.Sound env := hsu.sound hs
        have hulock := hsu.lock.mp hlock
        have hfree : u.index.isPending binding.sessionFile = false := by simpa using hfree
        refine (relying (evidence_gives (hus₁.sound hu))).bind fun proofs s₂ hevidence => ?_
        obtain ⟨hs₁s₂, hclean, hseen⟩ := hevidence
        have hone : Collected env [(chat, some binding)] u s₂ proofs :=
          (hseen.since hus₁).collected hulock hfree fun hp => hclean (hus₁.grows.poisoned _ hp)
        have hus₂ := hus₁.trans hs₁s₂
        split
        · next hunique =>
          refine (relying (ih (hus₂.sound hu) (hus₂.lock.mp hulock) hunique)).imp fun result t h => ?_
          obtain ⟨hs₂t, hresult, more, happend, hmore⟩ := h
          refine ⟨hresult, proofs ++ more, by rw [happend, List.append_assoc], ?_⟩
          have hboth := (hone.widen (.refl u) hs₂t.grows).append (hmore.widen hus₂.grows (.refl t))
          exact hboth.widen hsu.grows (.refl t)
        · exact Prog.gives_throw

/-! ## The file-only interval -/

/-- The task is outside the file-only interval and has reserved nothing. -/
structure Clear (i : Nat) (s : World) : Prop where
  lock : s.lock ≠ some i
  pending : ∀ r ∈ s.index.pending, r.2 ≠ i

/-- The world has grown, and nothing was reserved in the name of the task. -/
structure After (env : Runtime) (i : Nat) (s t : World) : Prop where
  grows : s.Grows t
  sound : s.Sound env → t.Sound env
  own : ∀ r ∈ t.index.pending, r.2 = i → r ∈ s.index.pending

theorem Rely.after (h : Rely env i s t) : After env i s t := ⟨h.grows, h.sound, h.own⟩

theorem Clear.rely (h : Clear i s) (hst : Rely env i s t) : Clear i t where
  lock ht := h.lock (hst.lock.mpr ht)
  pending r hr hi := h.pending r (hst.own r hr hi) hi

/-- One query of a task. -/
theorem ask_keeps {q : Query} (h : ∀ t a u, Rely env i s t → Does i t q a u → Guar env i t u) :
    (ask q).Keeps (contract env i) (fun r t => ∃ a u v, r = .ok a ∧ Rely env i s u ∧
      Does i u q a v ∧ Rely env i v t) s := by
  intro t ht a u hdoes
  exact ⟨h t a u ht hdoes, fun v hv => ⟨a, t, u, rfl, ht, hdoes, hv⟩⟩

/-- One query, and what follows on its answer. -/
theorem ask_bind {q : Query} {next : q.Answer → Job α} {post : Except ErrorClass α → World → Prop}
    (h : ∀ t a u, Rely env i s t → Does i t q a u → Guar env i t u)
    (hnext : ∀ t a u v, Rely env i s t → Does i t q a u → Rely env i u v →
      (next a).Keeps (contract env i) post v) :
    (ask q >>= next).Keeps (contract env i) post s := by
  refine (ask_keeps h).bind (fun a v hmid => ?_) fun e t hmid => ?_
  · obtain ⟨_, t, u, hvalue, hst, hdoes, huv⟩ := hmid
    cases hvalue
    exact hnext t a u v hst hdoes huv
  · obtain ⟨_, _, _, he, -⟩ := hmid
    cases he

/-- The task enters or leaves the file-only interval, and nobody else does. -/
theorem guar_lock {holder : Option Nat} (h : ∀ j, j ≠ i → (s.lock = some j ↔ holder = some j)) :
    Guar env i s { s with lock := holder } where
  grows := ⟨fun _ f hf => ⟨f, hf, .refl f⟩, fun _ _ hb => hb, fun _ hp => hp⟩
  sound h := h
  lock := h
  calm _ _ hr := hr
  own _ hr _ := hr

theorem guar_enter (hfree : s.lock = none) : Guar env i s { s with lock := some i } :=
  guar_lock fun j hj => by simp [hfree, hj.symm]

theorem guar_leave (hlock : s.lock = some i) : Guar env i s { s with lock := none } :=
  guar_lock fun j hj => by simp [hlock, hj.symm]

theorem after_lock {holder : Option Nat} (hst : Rely env i s t)
    (hguar : Guar env i t { t with lock := holder }) (htu : Rely env i { t with lock := holder } u) :
    After env i s u where
  grows := (hst.grows.trans hguar.grows).trans htu.grows
  sound h := htu.sound (hguar.sound (hst.sound h))
  own r hr hi := hst.own r (htu.own r hr hi) hi

theorem outcome_keeps {job : Job α} {post : Except ErrorClass α → World → Prop}
    (h : job.Keeps (contract env i) post s) (hstable : ∀ r t u, post r t → Rely env i t u → post r u) :
    (outcome job).Keeps (contract env i) (fun r t => ∃ r', r = .ok r' ∧ post r' t) s := by
  have hvalue : (job >>= fun a => pure (Except.ok a) : Job (Except ErrorClass α)).Keeps (contract env i)
      (fun r t => (∃ a, r = .ok (.ok a) ∧ post (.ok a) t) ∨ ∃ e, r = .error e ∧ post (.error e) t) s := by
    refine h.bind (fun a t ht => ?_) fun e t ht => .inr ⟨e, rfl, ht⟩
    exact Prog.keeps_pure fun u hu => .inl ⟨a, rfl, hstable _ t u ht hu⟩
  refine hvalue.tryCatch (fun r t hr => ?_) fun e t hr => ?_
  · obtain ⟨a, ha, ht⟩ | ⟨e, he, -⟩ := hr
    · exact ⟨.ok a, ha, ht⟩
    · cases he
  · obtain ⟨a, ha, -⟩ | ⟨e, he, ht⟩ := hr
    · cases ha
    · cases he
      exact Prog.keeps_pure fun u hu => ⟨.error _, rfl, hstable _ t u ht hu⟩

/-- A job in the file-only interval: it finds the interval its own, and the interval is left
however the job ends. -/
theorem exclusive_keeps {job : Job α} {post : Except ErrorClass α → World → Prop}
    (hjob : ∀ t, After env i s t → t.lock = some i →
      job.Keeps (contract env i) (fun r u => u.lock = some i ∧ post r u) t)
    (hstable : ∀ r t u, post r t → After env i t u → post r u) :
    (exclusive job).Keeps (contract env i) (fun r t => t.lock ≠ some i ∧ post r t) s := by
  have hlocked : ∀ r t u, (t.lock = some i ∧ post r t) → Rely env i t u → u.lock = some i ∧ post r u :=
    fun r t u h htu => ⟨htu.lock.mp h.1, hstable r t u h.2 htu.after⟩
  unfold exclusive
  refine ask_bind (fun t a u _ h => ?_) fun t₀ a v s₁ hst₀ hdoes hvs₁ => ?_
  · cases h with
    | enter hfree => exact guar_enter hfree
  cases hdoes with
  | enter hfree =>
    have hguar : Guar env i t₀ { t₀ with lock := some i } := guar_enter hfree
    have hafter : After env i s s₁ := after_lock hst₀ hguar hvs₁
    have hkeeps := hjob s₁ hafter (hvs₁.lock.mp rfl)
    refine (outcome_keeps hkeeps hlocked).bind (fun result s₂ hresult => ?_) fun e t h => ?_
    · obtain ⟨_, hok, hlock, hpost⟩ := hresult
      cases hok
      refine ask_bind (fun t a u hs₂t h => ?_) fun t₂ a w s₃ hs₂t₂ hdoes hws₃ => ?_
      · cases h
        exact guar_leave (hs₂t.lock.mp hlock)
      cases hdoes
      have hleave : Guar env i t₂ { t₂ with lock := none } := guar_leave (hs₂t₂.lock.mp hlock)
      have hend : ∀ t, Rely env i s₃ t → t.lock ≠ some i ∧ post result t := by
        intro t hs₃t
        have hwt := hws₃.trans hs₃t
        have hafter : After env i s₂ t := after_lock hs₂t₂ hleave hwt
        refine ⟨fun ht => ?_, hstable result s₂ t hpost hafter⟩
        cases hwt.lock.mpr ht
      cases result with
      | ok a => exact Prog.keeps_pure hend
      | error code => exact Prog.keeps_throw hend
    · obtain ⟨_, he, -⟩ := h
      cases he

/-! ## Tasks -/

/-- The program keeps the contract, is clear when it ends, and a value of it satisfies `post`. -/
def Ends (env : Runtime) (i : Nat) (p : Job α) (s : World) (post : α → World → Prop) : Prop :=
  p.Keeps (contract env i) (fun r t => Clear i t ∧ ∀ a, r = .ok a → post a t) s

section Rules

variable {post : α → World → Prop}

/-- What is quiet keeps the contract. -/
theorem quiet_keeps {p : Job α} (h : p.Gives (quiet env i) s post) :
    p.Keeps (contract env i) (fun r t => Rely env i s t ∧ ∀ a, r = .ok a → post a t) s := by
  have hcarry := h.carry (Rely env i s) (.refl s) (fun hst htu => hst.trans htu)
    fun hst htu => hst.trans htu.rely
  exact hcarry.weaken (fun _ _ h => h) (fun _ _ _ _ h => h) fun _ _ h => h.guar

theorem ends_quiet {p : Job α} (hs : Clear i s) (h : p.Gives (quiet env i) s post) :
    Ends env i p s fun a t => Rely env i s t ∧ post a t :=
  (quiet_keeps h).imp fun _ _ hr => ⟨hs.rely hr.1, fun a ha => ⟨hr.1, hr.2 a ha⟩⟩

theorem ends_pure {a : α} (hs : Clear i s) (h : ∀ t, Rely env i s t → post a t) :
    Ends env i (pure a) s post := by
  refine Prog.keeps_pure fun t ht => ⟨hs.rely ht, fun b hb => ?_⟩
  cases hb
  exact h t ht

theorem ends_throw {code : ErrorClass} (hs : Clear i s) :
    Ends env i (throw code : Job α) s post := by
  refine Prog.keeps_throw fun t ht => ⟨hs.rely ht, fun b hb => ?_⟩
  cases hb

theorem Ends.bind {p : Job β} {f : β → Job α} {mid : β → World → Prop} (h : Ends env i p s mid)
    (hf : ∀ b t, Clear i t → mid b t → Ends env i (f b) t post) : Ends env i (p >>= f) s post := by
  refine Prog.Keeps.bind h (fun b t hmid => hf b t hmid.1 (hmid.2 b rfl)) fun e t hmid => ?_
  exact ⟨hmid.1, fun a ha => by cases ha⟩

theorem Ends.imp {p : Job α} {post' : α → World → Prop} (h : Ends env i p s post)
    (himp : ∀ a t, post a t → post' a t) : Ends env i p s post' :=
  Prog.Keeps.imp h fun _ _ hr => ⟨hr.1, fun a ha => himp a _ (hr.2 a ha)⟩

theorem Ends.rethrow {p : Job α} {code : ErrorClass} (h : Ends env i p s post) :
    Ends env i (tryCatch p fun _ => throw code) s post :=
  Prog.Keeps.tryCatch h (fun _ _ hmid => hmid) fun _ _ hmid => ends_throw hmid.1

/-- A quiet job in the file-only interval. -/
theorem exclusive_ends {job : Job α} {mid : World → α → World → Prop} (hs : s.Sound env)
    (hclear : Clear i s)
    (hjob : ∀ t, t.Sound env → t.lock = some i → job.Gives (quiet env i) t (mid t))
    (hmid : ∀ t u a v, s.Grows t → mid t a u → u.Grows v → post a v)
    (hstable : ∀ a t u, post a t → t.Grows u → post a u) : Ends env i (exclusive job) s post := by
  have hkeeps : (exclusive job).Keeps (contract env i) (fun r t => t.lock ≠ some i ∧
      (∀ x ∈ t.index.pending, x.2 ≠ i) ∧ ∀ a, r = .ok a → post a t) s := by
    apply exclusive_keeps
    · intro t hafter hlock
      refine (quiet_keeps (hjob t (hafter.sound hs) hlock)).imp fun r u hr => ⟨hr.1.lock.mp hlock, ?_, ?_⟩
      · exact fun x hx hi => hclear.pending x (hafter.own x (hr.1.own x hx hi) hi) hi
      · exact fun a ha => hmid t u a u hafter.grows (hr.2 a ha) (.refl u)
    · intro r t u ht hafter
      refine ⟨fun x hx hi => ht.1 x (hafter.own x hx hi) hi, fun a ha => ?_⟩
      exact hstable a t u (ht.2 a ha) hafter.grows
  exact hkeeps.imp fun r t hr => ⟨⟨hr.1, hr.2.1⟩, hr.2.2⟩

end Rules

/-! ## Lookups -/

/-- The proof is durable, in a file that a chat is bound to. -/
def Marked (env : Runtime) (canonical : List String) (s : World) (p : StoredProof) : Prop :=
  Durable env s p ∧ ∃ chat ∈ canonical, ∃ b, s.bindings chat = some b ∧
    p.session.sessionFile = b.sessionFile

/-- What a lookup that began in `s` has in `t`: everything that was durable when it began, and
nothing that is not durable when it ends. -/
structure Rebuilt (env : Runtime) (canonical : List String) (s t : World) (all : List StoredProof) :
    Prop where
  complete : ∀ p, Marked env canonical s p → p ∈ all
  durable : ∀ p ∈ all, Durable env t p
  unreserved : ∀ p ∈ all, ∃ u ps, s.Grows u ∧ u.Grows t ∧
    Shows env u p.session.sessionFile ps ∧ p ∈ ps ∧ u.index.isPending p.session.sessionFile = false
  clean : ∀ chat ∈ canonical, ∀ b, s.bindings chat = some b → b.sessionFile ∉ s.index.poisoned
  unique : (all.map fun p => p.marker.eventId).Nodup

theorem Rebuilt.grows {all : List StoredProof} (h : Rebuilt env canonical s t all) (htu : t.Grows u) :
    Rebuilt env canonical s u all where
  complete := h.complete
  durable p hp := (h.durable p hp).grows htu
  unreserved p hp := by
    obtain ⟨v, ps, hsv, hvt, hrest⟩ := h.unreserved p hp
    exact ⟨v, ps, hsv, hvt.trans htu, hrest⟩
  clean := h.clean
  unique := h.unique

/-- A chat that was bound before is listed with its session. -/
theorem list_gives {chats : List String} : (list chats).Gives (quiet env i) s fun rows _ =>
    ∀ chat ∈ chats, ∀ b, s.bindings chat = some b → (chat, some b) ∈ rows := by
  induction chats generalizing s with
  | nil => exact Prog.gives_pure fun _ _ chat h => by cases h
  | cons chat rest ih =>
    unfold list
    refine (ask_reads fun t a u h => by cases h <;> rfl).bind fun row s₁ hmid => ?_
    obtain ⟨u, hsu, hdoes, hus₁⟩ := hmid
    cases hdoes with
    | rowFails => exact Prog.gives_throw
    | row =>
      simp only
      split
      · exact Prog.gives_throw
      · refine ih.bind fun rows s₂ hrows => Prog.gives_pure fun t _ other hother b hb => ?_
        obtain rfl | hother := List.mem_cons.mp hother
        · rw [hsu.grows.bindings _ b hb]
          exact List.mem_cons_self
        · apply List.mem_cons_of_mem
          exact hrows other hother b ((hsu.trans hus₁).grows.bindings _ b hb)

theorem snapshot_gives : (snapshot root canonical).Gives (quiet env i) s fun rows _ =>
    ∀ chat ∈ canonical, ∀ b, s.bindings chat = some b → (chat, some b) ∈ rows := by
  unfold snapshot
  refine list_gives.bind fun rows t hrows => ?_
  split
  · exact Prog.gives_pure fun _ _ => hrows
  · exact Prog.gives_throw

theorem rebuild_ends (hs : s.Sound env) (hclear : Clear i s) :
    Ends env i (rebuild env root canonical) s fun all t => Rebuilt env canonical s t all := by
  unfold rebuild
  refine (ends_quiet hclear snapshot_gives).bind fun rows t hclear' hmid => ?_
  obtain ⟨hst, hrows⟩ := hmid
  have hexclusive : Ends env i (exclusive (collect env root rows [])) t fun all v =>
      (all.map fun p => p.marker.eventId).Nodup ∧ Collected env rows t v all := by
    refine exclusive_ends (hst.sound hs) hclear'
      (fun u hu hlock => collect_gives hu hlock List.nodup_nil) ?_ ?_
    · intro u v all w htu hmore hvw
      obtain ⟨hunique, more, rfl, hmore⟩ := hmore
      exact ⟨hunique, hmore.widen htu hvw⟩
    · exact fun all v w hall hvw => ⟨hall.1, hall.2.widen (.refl t) hvw⟩
  refine hexclusive.imp fun all v hall => ?_
  obtain ⟨hunique, hall⟩ := hall
  have hwide := hall.widen hst.grows (.refl v)
  refine ⟨fun p hp => ?_, hwide.durable, hwide.unreserved, fun chat hchat b hb => ?_, hunique⟩
  · obtain ⟨hdurable, chat, hchat, b, hb, hpath⟩ := hp
    exact hwide.complete chat b (hrows chat hchat b hb) p hdurable hpath
  · exact hwide.clean chat b (hrows chat hchat b hb)

theorem findEvent_ends {chat id : String} (hs : s.Sound env) (hclear : Clear i s) :
    Ends env i (findEvent env root canonical chat id) s fun v t =>
      ∃ all, Rebuilt env canonical s t all ∧
        v = all.find? fun p => p.marker.canonicalChatId = chat && p.marker.eventId = id := by
  unfold findEvent
  split
  · exact ends_throw hclear
  · refine (rebuild_ends hs hclear).rethrow.bind fun all t hclear' hall => ?_
    exact ends_pure hclear' fun u hu => ⟨all, hall.grows hu.grows, rfl⟩

/-- `exclusive(() => evidence(binding))`. -/
theorem evidence_ends (hs : s.Sound env) (hclear : Clear i s) :
    Ends env i (exclusive (evidence env root binding)) s fun ps t =>
      (∀ p, Durable env s p → p.session.sessionFile = binding.sessionFile → p ∈ ps) ∧
        ∀ p ∈ ps, Durable env t p := by
  refine exclusive_ends hs hclear (fun t ht _ => evidence_gives ht) ?_ ?_
  · intro t u ps v hst hseen huv
    obtain ⟨-, hseen⟩ := hseen
    refine ⟨fun p hp hpath => ?_, fun p hp => (hseen.durable p hp).grows huv⟩
    obtain ⟨w, f, b, htw, -, hfile, hb, hps, -⟩ := hseen
    exact Shows.complete ⟨f, b, hpath ▸ hfile, hb.trans hpath.symm, hps⟩ (hp.grows hst) htw.grows
  · exact fun ps t u h htu => ⟨h.1, fun p hp => (h.2 p hp).grows htu⟩

/-! ## Completions -/

/-- The task has reserved nothing but this file. -/
def Owes (i : Nat) (path : String) (s : World) : Prop := ∀ r ∈ s.index.pending, r.2 = i → r.1 = path

/-- The task has reserved nothing. -/
def Free (i : Nat) (s : World) : Prop := ∀ r ∈ s.index.pending, r.2 ≠ i

theorem Owes.after (h : Owes i path s) (hst : After env i s t) : Owes i path t :=
  fun r hr hi => h r (hst.own r hr hi) hi

theorem Free.after (h : Free i s) (hst : After env i s t) : Free i t :=
  fun r hr hi => h r (hst.own r hr hi) hi

/-- What the task owed is gone once nothing of the file is pending. -/
theorem Owes.free {x : Index} (h : Owes i path s)
    (hpending : x.pending = s.index.pending.filter fun r => r.1 ≠ path) :
    Free i { s with index := x } := by
  intro r hr hi
  change r ∈ x.pending at hr
  rw [hpending] at hr
  obtain ⟨hmem, hne⟩ := List.mem_filter.mp hr
  have hne : r.1 ≠ path := by simpa using hne
  exact hne (h r hmem hi)

theorem reserve_some {x y : Index} (h : x.reserve i path = some y) :
    y = ⟨x.poisoned, (path, i) :: x.pending, Function.update x.cache path none⟩ := by
  unfold Index.reserve at h
  split at h
  · cases h
  · exact (Option.some.inj h).symm

theorem publish_some {x y : Index} (h : x.publish path = some y) :
    y = { x with pending := x.pending.filter fun r => r.1 ≠ path } := by
  unfold Index.publish at h
  split at h
  · cases h
  · exact (Option.some.inj h).symm

theorem guar_reserve {x : Index} (hlock : s.lock = some i) (h : s.index.reserve i path = some x) :
    Guar env i s { s with index := x } := by
  obtain rfl := reserve_some h
  have hgrows : s.Grows { s with index := ⟨s.index.poisoned, (path, i) :: s.index.pending,
      Function.update s.index.cache path none⟩ } := World.grows_of_index fun _ hp => hp
  refine ⟨hgrows, fun hs => hs.grows hgrows fun _ _ hentry => cached_of_forgotten hentry,
    fun _ _ => .rfl, fun hother => absurd hlock hother, fun r hr hi => ?_⟩
  obtain rfl | hr := List.mem_cons.mp hr
  · exact absurd rfl hi
  · exact hr

theorem quiet_publish {x : Index} (h : s.index.publish path = some x) :
    Quiet env s { s with index := x } := by
  obtain rfl := publish_some h
  have hgrows : s.Grows { s with index := { s.index with
      pending := s.index.pending.filter fun r => r.1 ≠ path } } := World.grows_of_index fun _ hp => hp
  refine ⟨hgrows, fun hs => hs.grows hgrows fun _ _ hentry => hentry, rfl, fun r hr => ?_⟩
  exact (List.mem_filter.mp hr).1

/-- The proof of the marker is durable in the file. -/
structure Completed (env : Runtime) (path : String) (marker : StoredMarker) (p : StoredProof)
    (s : World) : Prop where
  marker : p.marker = marker
  file : p.session.sessionFile = path
  durable : Durable env s p

theorem Completed.grows {p : StoredProof} (h : Completed env path marker p s) (hst : s.Grows t) :
    Completed env path marker p t := ⟨h.marker, h.file, h.durable.grows hst⟩

theorem Seen.completed {p : StoredProof} (h : Seen env i path ps s t) (hp : p ∈ ps)
    (hmarker : p.marker = marker) : Completed env path marker p t :=
  ⟨hmarker, h.file p hp, h.durable p hp⟩

/-- How the job before the append ends. -/
def ReserveEnds (env : Runtime) (i : Nat) (path : String) (marker : StoredMarker) :
    Except ErrorClass (Option StoredProof) → World → Prop
  | .ok (some p), t => Free i t ∧ Completed env path marker p t
  | .ok none, t => Owes i path t
  | .error _, t => Free i t

/-- How the append ends. -/
def AppendEnds (env : Runtime) (i : Nat) (path : String) (marker : StoredMarker) :
    Except ErrorClass StoredProof → World → Prop
  | .ok p, t => Free i t ∧ Completed env path marker p t
  | .error _, t => Owes i path t

theorem ReserveEnds.after {r : Except ErrorClass (Option StoredProof)}
    (h : ReserveEnds env i path marker r s) (hst : After env i s t) : ReserveEnds env i path marker r t := by
  obtain _ | _ | p := r
  · exact Free.after h hst
  · exact Owes.after h hst
  · exact ⟨h.1.after hst, h.2.grows hst.grows⟩

theorem AppendEnds.after {r : Except ErrorClass StoredProof} (h : AppendEnds env i path marker r s)
    (hst : After env i s t) : AppendEnds env i path marker r t := by
  obtain _ | p := r
  · exact Owes.after h hst
  · exact ⟨h.1.after hst, h.2.grows hst.grows⟩

/-- Before the append: the proof that is there already, or the reservation. -/
theorem reserveFor_keeps (hs : s.Sound env) (hlock : s.lock = some i) (hfree : Free i s) :
    (reserveFor env root binding marker).Keeps (contract env i) (fun r t => t.lock = some i ∧
      ReserveEnds env i binding.sessionFile marker r t) s := by
  unfold reserveFor
  have hkept : ∀ {t}, Rely env i s t → t.lock = some i ∧ Free i t := fun ht =>
    ⟨ht.lock.mp hlock, hfree.after ht.after⟩
  refine (quiet_keeps (evidence_gives hs)).bind (fun before s₁ hmid => ?_) fun e t hmid => hkept hmid.1
  obtain ⟨hss₁, hseen⟩ := hmid
  obtain ⟨-, hshown⟩ := hseen before rfl
  split
  · next found hfound =>
    split
    · exact Prog.keeps_throw fun t ht => hkept (hss₁.trans ht)
    · next hmarker =>
      refine Prog.keeps_pure fun t ht => ⟨(hkept (hss₁.trans ht)).1, (hkept (hss₁.trans ht)).2, ?_⟩
      exact (hshown.completed (List.mem_of_find?_eq_some hfound) (not_not.mp hmarker)).grows ht.grows
  · refine ask_bind (fun t a u ht h => ?_) fun u ok v s₂ hs₁u hdoes hvs₂ => ?_
    · cases h with
      | reserve hreserve => exact guar_reserve ((hss₁.trans ht).lock.mp hlock) hreserve
      | refuses => exact (Quiet.refl t).guar
    have hsu := hss₁.trans hs₁u
    cases hdoes with
    | reserve hreserve =>
      obtain rfl := reserve_some hreserve
      refine Prog.keeps_pure fun t ht => ?_
      have hut := hvs₂.trans ht
      refine ⟨hut.lock.mp (hkept hsu).1, fun r hr hi => ?_⟩
      obtain rfl | hr := List.mem_cons.mp (hut.own r hr hi)
      · rfl
      · exact absurd hi ((hkept hsu).2 r hr)
    | refuses => exact Prog.keeps_throw fun t ht => hkept ((hsu.trans hvs₂).trans ht)

/-- After the append: the proof is found, and the reservation ends. -/
theorem publishAs_keeps {id : String} (hs : s.Sound env) (hlock : s.lock = some i)
    (howes : Owes i binding.sessionFile s) :
    (publishAs env root binding marker id).Keeps (contract env i) (fun r t => t.lock = some i ∧
      AppendEnds env i binding.sessionFile marker r t) s := by
  unfold publishAs
  have hkept : ∀ {t}, Rely env i s t → t.lock = some i ∧ Owes i binding.sessionFile t := fun ht =>
    ⟨ht.lock.mp hlock, howes.after ht.after⟩
  refine (quiet_keeps (evidence_gives hs)).bind (fun after s₁ hmid => ?_) fun e t hmid => hkept hmid.1
  obtain ⟨hss₁, hseen⟩ := hmid
  obtain ⟨-, hshown⟩ := hseen after rfl
  cases hfound : after.find? fun p => p.entryId = id with
  | none => exact Prog.keeps_throw fun t ht => hkept (hss₁.trans ht)
  | some p =>
    show Prog.Keeps (contract env i) (if p.marker ≠ marker then fail else _) _ s₁
    split
    · exact Prog.keeps_throw fun t ht => hkept (hss₁.trans ht)
    · next hmarker =>
      refine ask_bind (fun t a u _ h => ?_) fun u ok v s₂ hs₁u hdoes hvs₂ => ?_
      · cases h with
        | publish hpublish => exact (quiet_publish hpublish).guar
        | retains => exact (Quiet.refl t).guar
      have hsu := hss₁.trans hs₁u
      cases hdoes with
      | publish hpublish =>
        have hquiet : Quiet env u _ := quiet_publish hpublish
        refine Prog.keeps_pure fun t ht => ?_
        have hvt := hvs₂.trans ht
        have hfree := (hkept hsu).2.free (congrArg Index.pending (publish_some hpublish))
        refine ⟨((hsu.trans hquiet.rely).trans hvt).lock.mp hlock, hfree.after hvt.after, ?_⟩
        have hp := hshown.completed (List.mem_of_find?_eq_some hfound) (not_not.mp hmarker)
        exact hp.grows ((hs₁u.trans hquiet.rely).trans hvt).grows
      | retains => exact Prog.keeps_throw fun t ht => hkept ((hsu.trans hvs₂).trans ht)

theorem current_gives : current.Gives (quiet env i) s fun _ _ => True := by
  unfold current
  refine (ask_reads fun t a u h => by cases h; rfl).bind fun ok t _ => ?_
  split
  · exact Prog.gives_throw
  · exact Prog.gives_pure fun _ _ => trivial

theorem appendSynced_gives : (appendSynced binding marker).Gives (quiet env i) s fun _ _ => True := by
  unfold appendSynced
  refine current_gives.bind fun _ _ _ => ?_
  have happend : ∀ {s}, (ask (.append binding.sessionFile marker) >>= need).Gives (quiet env i) s
      fun _ _ => True := by
    refine (ask_quiet fun t a u _ h => ?_).bind fun _ _ _ => need_gives fun _ _ _ _ => trivial
    cases h with
    | append hfile bytes mtimeNs => exact quiet_write hfile (SessionFile.grows_append _ _ _)
    | appendFails => exact .refl _
  refine happend.bind fun _ _ _ => current_gives.bind fun _ _ _ => ?_
  refine (ask_quiet fun t a u _ h => ?_).bind fun ok _ _ => ?_
  · cases h with
    | sync hfile | syncsPart hfile => exact quiet_write hfile (SessionFile.grows_sync _)
    | syncFails => exact .refl _
  · split
    · exact Prog.gives_throw
    · exact current_gives.bind fun _ _ _ => Prog.gives_pure fun _ _ => trivial

theorem appendReserved_keeps (hs : s.Sound env) (hlock : s.lock ≠ some i)
    (howes : Owes i binding.sessionFile s) :
    (appendReserved env root binding marker).Keeps (contract env i) (fun r t => t.lock ≠ some i ∧
      AppendEnds env i binding.sessionFile marker r t) s := by
  unfold appendReserved
  refine (quiet_keeps appendSynced_gives).bind (fun id s₁ hmid => ?_) fun e t hmid => ?_
  · apply exclusive_keeps
    · intro t hafter hlock'
      exact publishAs_keeps (hafter.sound (hmid.1.sound hs)) hlock' ((howes.after hmid.1.after).after hafter)
    · exact fun r t u h htu => h.after htu
  · exact ⟨fun ht => hlock (hmid.1.lock.mpr ht), howes.after hmid.1.after⟩

/-- The cache holds all along. -/
theorem sound_keeps {p : Job α} {post : Except ErrorClass α → World → Prop} (hs : s.Sound env)
    (h : p.Keeps (contract env i) post s) :
    p.Keeps (contract env i) (fun r t => t.Sound env ∧ post r t) s :=
  h.carry (World.Sound env) hs (fun h hst => hst.sound h) fun h hst => hst.sound h

/-- A completion that is appended is durable, and however the append ends, the task has left the
file-only interval and the reservation is gone. -/
theorem appendCompletion_ends (hs : s.Sound env) (hclear : Clear i s) :
    Ends env i (appendCompletion env root binding marker) s fun p t =>
      Completed env binding.sessionFile marker p t := by
  unfold appendCompletion
  refine (ends_quiet hclear current_gives).bind fun _ s₁ hclear₁ hmid => ?_
  have hreserve : (exclusive (reserveFor env root binding marker)).Keeps (contract env i)
      (fun r t => t.lock ≠ some i ∧ t.Sound env ∧ ReserveEnds env i binding.sessionFile marker r t) s₁ := by
    apply exclusive_keeps
    · intro t hafter hlock
      have ht := hafter.sound (hmid.1.sound hs)
      have hfree : Free i t := Free.after hclear₁.pending hafter
      exact (sound_keeps ht (reserveFor_keeps ht hlock hfree)).imp fun r u h => ⟨h.2.1, h.1, h.2.2⟩
    · exact fun r t u h htu => ⟨htu.sound h.1, h.2.after htu⟩
  refine hreserve.bind (fun existing s₂ hend => ?_) fun e t hend => ?_
  · cases existing with
    | some p =>
      refine ends_pure ⟨hend.1, hend.2.2.1⟩ fun t ht => hend.2.2.2.grows ht.grows
    | none =>
      refine Prog.Keeps.tryCatch (appendReserved_keeps hend.2.1 hend.1 hend.2.2) (fun p t hp => ?_)
        fun e t he => ?_
      · refine ⟨⟨hp.1, hp.2.1⟩, fun a ha => ?_⟩
        cases ha
        exact hp.2.2
      · refine ask_bind (fun _ _ _ _ h => ?_) fun u _ v s₃ htu hdoes hvs₃ => ?_
        · cases h
          exact quiet_poison.guar
        cases hdoes
        have hquiet : Quiet env u { u with index := u.index.poison binding.sessionFile } :=
          quiet_poison
        have howes : Owes i binding.sessionFile u := Owes.after he.2 htu.after
        have hfree : Free i { u with index := u.index.poison binding.sessionFile } := howes.free rfl
        apply ends_throw
        refine ⟨fun h => he.1 ?_, hfree.after hvs₃.after⟩
        exact ((htu.trans hquiet.rely).trans hvs₃).lock.mpr h
  · exact ⟨⟨hend.1, hend.2.2⟩, fun a ha => by cases ha⟩

end WhatsAppMcp.Controller.Pi.FileIndex
