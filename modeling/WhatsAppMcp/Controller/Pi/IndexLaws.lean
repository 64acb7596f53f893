import WhatsAppMcp.Controller.Pi.FileIndex

/-!
# What the completion index answers

Calls of the index, appends of the model host and writers of the session files in any
interleaving.  A call relies on little: files grow, bindings stay, nobody else enters or
leaves the file-only interval in its name, and what is in the cache stays true
(`Rely`).
-/

namespace WhatsAppMcp.Controller.Pi.FileIndex

open Calls

variable {env : Runtime} {root path : String} {i : Nat} {s t u : World} {binding : SessionBinding}
  {f g : SessionFile} {ps : List StoredProof}

/-! ## Growing -/

/-- The file is appended to and synchronised. -/
structure SessionFile.Grows (f g : SessionFile) : Prop where
  content : f.content <+: g.content
  stable : f.stable ≤ g.stable

theorem SessionFile.Grows.refl (f : SessionFile) : f.Grows f := ⟨List.prefix_refl _, le_refl _⟩

theorem SessionFile.Grows.trans {h : SessionFile} (hfg : f.Grows g) (hgh : g.Grows h) : f.Grows h :=
  ⟨hfg.content.trans hgh.content, hfg.stable.trans hgh.stable⟩

theorem SessionFile.grows_append (f : SessionFile) (bytes : List UInt8) (mtimeNs : Nat) :
    f.Grows (f.append bytes mtimeNs) := ⟨List.prefix_append _ _, le_refl _⟩

theorem SessionFile.grows_sync (f : SessionFile) : f.Grows f.sync :=
  ⟨List.prefix_refl _, f.stable_le⟩

/-- What the file once held is still at its start. -/
theorem SessionFile.Grows.take (h : f.Grows g) {n : Nat} (hn : n ≤ f.content.length) :
    g.content.take n = f.content.take n := by
  obtain ⟨more, hmore⟩ := h.content
  rw [← hmore, List.take_append_of_le_length hn]

/-- What is never undone. -/
structure World.Grows (s t : World) : Prop where
  files : ∀ path f, s.files path = some f → ∃ g, t.files path = some g ∧ f.Grows g
  bindings : ∀ chat b, s.bindings chat = some b → t.bindings chat = some b
  poisoned : ∀ path, path ∈ s.index.poisoned → path ∈ t.index.poisoned

theorem World.Grows.refl (s : World) : s.Grows s :=
  ⟨fun _ f hf => ⟨f, hf, .refl f⟩, fun _ _ hb => hb, fun _ hp => hp⟩

theorem World.Grows.trans (hst : s.Grows t) (htu : t.Grows u) : s.Grows u := by
  refine ⟨fun path f hf => ?_, fun chat b hb => ?_, fun path hp => ?_⟩
  · obtain ⟨g, hg, hfg⟩ := hst.files path f hf
    obtain ⟨h, hh, hgh⟩ := htu.files path g hg
    exact ⟨h, hh, hfg.trans hgh⟩
  · exact htu.bindings chat b (hst.bindings chat b hb)
  · exact htu.poisoned path (hst.poisoned path hp)

theorem World.grows_write (hfile : s.files path = some f) (hgrows : f.Grows g) :
    s.Grows (s.write path g) := by
  refine ⟨fun other h hh => ?_, fun _ _ hb => hb, fun _ hp => hp⟩
  by_cases hpath : other = path
  · subst hpath
    obtain rfl := Option.some.inj (hfile.symm.trans hh)
    exact ⟨g, Function.update_self .., hgrows⟩
  · exact ⟨h, (Function.update_of_ne hpath ..).trans hh, .refl h⟩

/-- Only the index changes, and nothing poisoned is forgotten. -/
theorem World.grows_of_index {x : Index} (h : ∀ path, path ∈ s.index.poisoned → path ∈ x.poisoned) :
    s.Grows { s with index := x } :=
  ⟨fun _ f hf => ⟨f, hf, .refl f⟩, fun _ _ hb => hb, h⟩

/-! ## What is certain -/

/-- So many bytes of the file at a path are on stable storage. -/
def Stored (s : World) (path : String) (n : Nat) : Prop := ∃ f, s.files path = some f ∧ n ≤ f.stable

theorem Stored.grows {n : Nat} (h : Stored s path n) (hst : s.Grows t) : Stored t path n := by
  obtain ⟨f, hf, hn⟩ := h
  obtain ⟨g, hg, hfg⟩ := hst.files path f hf
  exact ⟨g, hg, hn.trans hfg.stable⟩

/-- The proof is in the evidence of bytes that are on stable storage. -/
def Durable (env : Runtime) (s : World) (p : StoredProof) : Prop :=
  ∃ f n ps, s.files p.session.sessionFile = some f ∧ n ≤ f.stable ∧
    evidenceOf env p.session (f.content.take n) = some ps ∧ p ∈ ps

theorem Durable.grows {p : StoredProof} (h : Durable env s p) (hst : s.Grows t) : Durable env t p := by
  obtain ⟨f, n, ps, hf, hn, hps, hp⟩ := h
  obtain ⟨g, hg, hfg⟩ := hst.files _ f hf
  refine ⟨g, n, ps, hg, hn.trans hfg.stable, ?_, hp⟩
  rw [hfg.take (hn.trans f.stable_le)]
  exact hps

/-- The file at a path is, as it is now, evidence of these proofs. -/
def Shows (env : Runtime) (s : World) (path : String) (ps : List StoredProof) : Prop :=
  ∃ f b, s.files path = some f ∧ b.sessionFile = path ∧ evidenceOf env b f.content = some ps

/-- A proof that is durable is among those that the file shows later. -/
theorem Shows.complete {p : StoredProof} (h : Shows env t p.session.sessionFile ps)
    (hp : Durable env s p) (hst : s.Grows t) : p ∈ ps := by
  obtain ⟨f, b, hf, -, hps⟩ := h
  obtain ⟨g, n, qs, hg, hn, hqs, hmem⟩ := hp.grows hst
  obtain rfl := Option.some.inj (hf.symm.trans hg)
  rw [← List.take_append_drop n f.content] at hps
  obtain rfl := evidenceOf_binding hqs hps
  exact (evidenceOf_append hqs hps).subset hmem

/-- The entry is the evidence of bytes that are on stable storage. -/
def CacheEntry.Holds (env : Runtime) (s : World) (path : String) (entry : CacheEntry) : Prop :=
  Stored s path entry.identity.size ∧ ∃ f b, s.files path = some f ∧ b.sessionFile = path ∧
    evidenceOf env b (f.content.take entry.identity.size) = some entry.proofs

/-- The cache holds. -/
def World.Sound (env : Runtime) (s : World) : Prop :=
  ∀ path entry, s.index.cache path = some entry → entry.Holds env s path

theorem CacheEntry.Holds.grows {entry : CacheEntry} (h : entry.Holds env s path) (hst : s.Grows t) :
    entry.Holds env t path := by
  obtain ⟨hstored, f, b, hf, hb, hps⟩ := h
  obtain ⟨f', hf', hsize⟩ := hstored
  obtain rfl := Option.some.inj (hf.symm.trans hf')
  obtain ⟨g, hg, hfg⟩ := hst.files path f hf
  refine ⟨⟨g, hg, hsize.trans hfg.stable⟩, g, b, hg, hb, ?_⟩
  rw [hfg.take (hsize.trans f.stable_le)]
  exact hps

theorem World.Sound.grows (h : s.Sound env) (hst : s.Grows t)
    (hcache : ∀ path entry, t.index.cache path = some entry → s.index.cache path = some entry) :
    t.Sound env :=
  fun path entry hentry => (h path entry (hcache path entry hentry)).grows hst

/-! ## The contract -/

/-- What a task relies on. -/
structure Rely (env : Runtime) (i : Nat) (s t : World) : Prop where
  grows : s.Grows t
  sound : s.Sound env → t.Sound env
  lock : s.lock = some i ↔ t.lock = some i
  /-- Nothing is reserved while it is in the file-only interval. -/
  calm : s.lock = some i → ∀ r ∈ t.index.pending, r ∈ s.index.pending
  /-- Nothing is reserved in its name. -/
  own : ∀ r ∈ t.index.pending, r.2 = i → r ∈ s.index.pending

/-- What a task guarantees. -/
structure Guar (env : Runtime) (i : Nat) (s t : World) : Prop where
  grows : s.Grows t
  sound : s.Sound env → t.Sound env
  lock : ∀ j, j ≠ i → (s.lock = some j ↔ t.lock = some j)
  calm : s.lock ≠ some i → ∀ r ∈ t.index.pending, r ∈ s.index.pending
  own : ∀ r ∈ t.index.pending, r.2 ≠ i → r ∈ s.index.pending

/-- A step that enters and leaves nothing and reserves nothing. -/
structure Quiet (env : Runtime) (s t : World) : Prop where
  grows : s.Grows t
  sound : s.Sound env → t.Sound env
  lock : t.lock = s.lock
  pending : ∀ r ∈ t.index.pending, r ∈ s.index.pending

theorem Rely.refl (s : World) : Rely env i s s :=
  ⟨.refl s, id, .rfl, fun _ _ hr => hr, fun _ hr _ => hr⟩

theorem Rely.trans (hst : Rely env i s t) (htu : Rely env i t u) : Rely env i s u where
  grows := hst.grows.trans htu.grows
  sound h := htu.sound (hst.sound h)
  lock := hst.lock.trans htu.lock
  calm h r hr := hst.calm h r (htu.calm (hst.lock.mp h) r hr)
  own r hr hi := hst.own r (htu.own r hr hi) hi

theorem Quiet.rely (h : Quiet env s t) : Rely env i s t where
  grows := h.grows
  sound := h.sound
  lock := by rw [h.lock]
  calm _ := h.pending
  own r hr _ := h.pending r hr

theorem Quiet.guar (h : Quiet env s t) : Guar env i s t where
  grows := h.grows
  sound := h.sound
  lock j _ := by rw [h.lock]
  calm _ := h.pending
  own r hr _ := h.pending r hr

theorem Guar.rely {j : Nat} (h : Guar env i s t) (hj : j ≠ i) : Rely env j s t where
  grows := h.grows
  sound := h.sound
  lock := h.lock j hj
  calm hlock := h.calm fun hi => hj (Option.some.inj (hlock.symm.trans hi))
  own r hr hr' := h.own r hr fun hi => hj (hr'.symm.trans hi)

theorem Quiet.refl (s : World) : Quiet env s s := ⟨.refl s, id, rfl, fun _ hr => hr⟩

theorem quiet_write (hfile : s.files path = some f) (hgrows : f.Grows g) :
    Quiet env s (s.write path g) where
  grows := World.grows_write hfile hgrows
  sound h := h.grows (World.grows_write hfile hgrows) fun _ _ hentry => hentry
  lock := rfl
  pending _ hr := hr

/-- What is cached after an entry was forgotten was cached before. -/
theorem cached_of_forgotten {other : String} {cache : String → Option CacheEntry} {entry : CacheEntry}
    (h : Function.update cache path none other = some entry) : cache other = some entry := by
  by_cases hother : other = path
  · subst hother
    rw [Function.update_self] at h
    cases h
  · rwa [Function.update_of_ne hother] at h

theorem quiet_poison : Quiet env s { s with index := s.index.poison path } := by
  have hgrows : s.Grows { s with index := s.index.poison path } :=
    World.grows_of_index fun _ hp => List.mem_cons_of_mem _ hp
  refine ⟨hgrows, fun h => h.grows hgrows fun _ _ hentry => cached_of_forgotten hentry, rfl,
    fun r hr => ?_⟩
  exact (List.mem_filter.mp hr).1

theorem quiet_store {entry : CacheEntry} (hentry : entry.Holds env s path) :
    Quiet env s { s with index := s.index.store path entry } := by
  have hgrows : s.Grows { s with index := s.index.store path entry } :=
    World.grows_of_index fun _ hp => hp
  refine ⟨hgrows, fun h other entry' hentry' => ?_, rfl, fun _ hr => hr⟩
  change Function.update s.index.cache path (some entry) other = some entry' at hentry'
  by_cases hother : other = path
  · subst hother
    rw [Function.update_self] at hentry'
    cases hentry'
    exact hentry.grows hgrows
  · rw [Function.update_of_ne hother] at hentry'
    exact (h other entry' hentry').grows hgrows

/-- The world moves by itself within what every task relies on. -/
theorem quiet_moves (h : Moves s t) : Quiet env s t := by
  cases h with
  | append hfile bytes mtimeNs => exact quiet_write hfile (SessionFile.grows_append _ _ _)
  | sync hfile => exact quiet_write hfile (SessionFile.grows_sync _)
  | @create path hnew f =>
    have hgrows : s.Grows (s.write path f) := by
      refine ⟨fun other g hg => ⟨g, ?_, .refl g⟩, fun _ _ hb => hb, fun _ hp => hp⟩
      refine (Function.update_of_ne ?_ ..).trans hg
      rintro rfl
      rw [hnew] at hg
      cases hg
    exact ⟨hgrows, fun h => h.grows hgrows fun _ _ hentry => hentry, rfl, fun _ hr => hr⟩
  | @bind chat hnew b =>
    have hgrows : s.Grows { s with bindings := Function.update s.bindings chat (some b) } := by
      refine ⟨fun _ f hf => ⟨f, hf, .refl f⟩, fun other b' hb => ?_, fun _ hp => hp⟩
      refine (Function.update_of_ne ?_ ..).trans hb
      rintro rfl
      rw [hnew] at hb
      cases hb
    exact ⟨hgrows, fun h => h.grows hgrows fun _ _ hentry => hentry, rfl, fun _ hr => hr⟩

/-- The contract of task `i`. -/
def contract (env : Runtime) (i : Nat) : Contract World Query Query.Answer :=
  ⟨Rely env i, Guar env i, Does i, .refl, .trans⟩

/-- The contract of what reserves nothing and stays in the file-only interval or out of it. -/
def quiet (env : Runtime) (i : Nat) : Contract World Query Query.Answer :=
  ⟨Rely env i, fun s t => Quiet env s t, Does i, .refl, .trans⟩

/-! ## Queries -/

/-- What a quiet program does is within what others rely on. -/
theorem relying {α : Type} {p : Job α} {post : α → World → Prop} (h : p.Gives (quiet env i) s post) :
    p.Gives (quiet env i) s fun a t => Rely env i s t ∧ post a t := by
  refine (h.carry (Rely env i s) (.refl s) (fun hst htu => hst.trans htu) fun hst htu =>
    hst.trans htu.rely).imp fun r t hr a ha => ?_
  exact ⟨hr.1, hr.2 a ha⟩

section Queries

variable {q : Query}

/-- A query that changes nothing. -/
theorem ask_reads (h : ∀ t a u, Does i t q a u → u = t) :
    (ask q).Gives (quiet env i) s fun a t =>
      ∃ u, Rely env i s u ∧ Does i u q a u ∧ Rely env i u t := by
  intro t ht a u hdoes
  obtain rfl := h t a u hdoes
  refine ⟨.refl _, fun v hv b hb => ?_⟩
  cases hb
  exact ⟨_, ht, hdoes, hv⟩

/-- A query that is quiet. -/
theorem ask_quiet (h : ∀ t a u, Rely env i s t → Does i t q a u → Quiet env t u) :
    (ask q).Gives (quiet env i) s fun a t =>
      ∃ u v, Rely env i s u ∧ Does i u q a v ∧ Rely env i s v ∧ Rely env i v t := by
  intro t ht a u hdoes
  have hquiet := h t a u ht hdoes
  refine ⟨hquiet, fun v hv b hb => ?_⟩
  cases hb
  exact ⟨t, u, ht, hdoes, ht.trans hquiet.rely, hv⟩

end Queries

theorem need_gives {α : Type} {a : Option α} {post : α → World → Prop}
    (h : ∀ b t, a = some b → Rely env i s t → post b t) :
    (need a).Gives (quiet env i) s post := by
  cases a with
  | none => exact Prog.gives_throw
  | some b => exact Prog.gives_pure fun t ht => h b t rfl ht

/-- A status is that of the file at some point. -/
theorem status_gives : (status path).Gives (quiet env i) s fun v t =>
    ∃ u f, Rely env i s u ∧ u.files path = some f ∧ v = f.status ∧ Rely env i u t := by
  refine (ask_reads fun t a u h => by cases h <;> rfl).bind fun v t hread => ?_
  obtain ⟨u, hsu, hdoes, hut⟩ := hread
  apply need_gives
  intro w t' hw ht'
  subst hw
  cases hdoes with
  | status hfile => exact ⟨u, _, hsu, hfile, rfl, hut.trans ht'⟩

/-- While a status is asked for, the others move. -/
theorem status_rely : (status path).Gives (quiet env i) s fun _ t => Rely env i s t :=
  (relying status_gives).imp fun _ _ h => h.1

theorem identity_gives : (identity root binding).Gives (quiet env i) s fun v t =>
    ∃ u f, Rely env i s u ∧ u.files binding.sessionFile = some f ∧ v = identityOf f.status ∧
      Rely env i u t := by
  unfold identity
  split
  · exact Prog.gives_throw
  · refine status_gives.bind fun v t hstatus => ?_
    obtain ⟨u, f, hsu, hfile, rfl, hut⟩ := hstatus
    split
    · exact Prog.gives_throw
    · exact Prog.gives_pure fun t' ht' => ⟨u, f, hsu, hfile, rfl, hut.trans ht'⟩

/-! ## Reading a file that grows -/

/-- However the reads interleave with appends, they give the bytes that were there when the
reading began. -/
theorem readLines_gives {f : SessionFile} (hfile : u.files binding.sessionFile = some f)
    (remaining offset : Nat) (hlength : offset + remaining = f.content.length)
    (r : LineReader EvidenceScan) (hus : Rely env i u s) :
    (readLines env binding remaining offset r).Gives (quiet env i) s fun v t =>
      Rely env i u t ∧ ∀ r', v = some r' → ∃ chunks,
        LineReader.Splits (f.content.drop offset) chunks ∧
          LineReader.loop (fun _ => true) (consume env binding) r remaining chunks = some r' := by
  induction remaining using Nat.strong_induction_on generalizing offset r s with
  | _ remaining ih =>
    rw [readLines]
    split
    · next hzero =>
      subst hzero
      refine Prog.gives_pure fun t ht => ⟨hus.trans ht, fun r' hr' => ?_⟩
      have hdrop : f.content.drop offset = [] := List.drop_eq_nil_of_le (by omega)
      exact ⟨[], ⟨hdrop.symm, fun _ h => by cases h⟩, hr'⟩
    · next hpos =>
      refine (ask_reads fun t a v h => by cases h <;> rfl).bind fun bytes t hread => ?_
      obtain ⟨v, hsv, hdoes, hvt⟩ := hread
      have hut : Rely env i u t := (hus.trans hsv).trans hvt
      have hnone : ∀ w, Rely env i t w → Rely env i u w ∧ ∀ r' : LineReader EvidenceScan, none = some r' →
          ∃ chunks, LineReader.Splits (f.content.drop offset) chunks ∧
            LineReader.loop (fun _ => true) (consume env binding) r remaining chunks = some r' :=
        fun w hw => ⟨hut.trans hw, fun r' hr' => by cases hr'⟩
      cases hdoes with
      | readFails => exact Prog.gives_pure hnone
      | @read _ _ _ g chunk hg hbytes =>
        simp only
        split
        · exact Prog.gives_pure hnone
        · next hchunk =>
          -- The bytes are those of the file as it was.
          obtain ⟨g', hg', hgrows⟩ := (hus.trans hsv).grows.files _ f hfile
          obtain rfl := Option.some.inj (hg.symm.trans hg')
          have hpart : chunk <+: f.content.drop offset := by
            obtain ⟨more, hmore⟩ := hgrows.content
            rw [← hmore, List.drop_append_of_le_length (by omega), List.take_append_of_le_length
              (by rw [List.length_drop]; omega)] at hbytes
            exact hbytes.trans (List.take_prefix _ _)
          obtain ⟨rest, hrest⟩ := hpart
          have hsize : chunk.length + rest.length = remaining := by
            have := congrArg List.length hrest
            rw [List.length_append, List.length_drop] at this
            omega
          split
          · exact Prog.gives_pure hnone
          · next r₁ hfeed =>
            have hless : remaining - chunk.length < remaining := by
              have := List.length_pos_of_ne_nil hchunk
              omega
            refine (ih (remaining - chunk.length) hless (offset + chunk.length) (by omega) r₁
              hut).imp fun v w hmid => ⟨hmid.1, fun r' hr' => ?_⟩
            obtain ⟨chunks, hsplits, hloop⟩ := hmid.2 r' hr'
            have hdrop : f.content.drop (offset + chunk.length) = rest := by
              rw [← List.drop_drop, ← hrest, List.drop_left]
            refine ⟨chunk :: chunks, ⟨?_, ?_⟩, ?_⟩
            · rw [List.flatten_cons, hsplits.whole, hdrop, hrest]
            · intro c hc
              obtain rfl | hc := List.mem_cons.mp hc
              · exact hchunk
              · exact hsplits.nonempty c hc
            · obtain ⟨n, rfl⟩ : ∃ n, remaining = n + 1 := ⟨remaining - 1, by omega⟩
              rw [LineReader.loop, if_neg hchunk, hfeed]
              exact hloop

/-- Since `s` the file at a path has shown these proofs, all of them from bytes that are
on stable storage in `t`. -/
def Seen (env : Runtime) (i : Nat) (path : String) (ps : List StoredProof) (s t : World) : Prop :=
  ∃ u f b, Rely env i s u ∧ Rely env i u t ∧ u.files path = some f ∧ b.sessionFile = path ∧
    evidenceOf env b f.content = some ps ∧ Stored t path f.content.length

theorem Seen.rely (h : Seen env i path ps s t) (htu : Rely env i t u) : Seen env i path ps s u := by
  obtain ⟨v, f, b, hsv, hvt, hfile, hb, hps, hstored⟩ := h
  exact ⟨v, f, b, hsv, hvt.trans htu, hfile, hb, hps, hstored.grows htu.grows⟩

theorem Seen.since (h : Seen env i path ps t u) (hst : Rely env i s t) : Seen env i path ps s u := by
  obtain ⟨v, f, b, htv, hvu, hrest⟩ := h
  exact ⟨v, f, b, hst.trans htv, hvu, hrest⟩

/-! ## The evidence of one file -/

/-- What is read to the end is the evidence of the whole content. -/
theorem proven_of_loop {content : List UInt8} {chunks : List (List UInt8)} {r : LineReader EvidenceScan}
    (hsplits : LineReader.Splits content chunks)
    (hloop : LineReader.loop (fun _ => true) (consume env binding) ⟨.start, .empty, []⟩ content.length
      chunks = some r)
    (hproven : (LineReader.finish r).bind EvidenceScan.proven = some ps) :
    evidenceOf env binding content = some ps := by
  have hread : LineReader.read (fun _ => true) (consume env binding) .empty content.length chunks =
      _ := LineReader.read_eq hsplits _
  unfold LineReader.read at hread
  rw [hloop, Option.bind_some] at hread
  rw [hread, Option.bind_assoc] at hproven
  exact hproven

theorem attempt_gives : (attempt env binding).Gives (quiet env i) s fun v t =>
    ∀ ps, v = some ps → Seen env i binding.sessionFile ps s t := by
  unfold attempt
  refine (ask_reads fun t a u h => by cases h; rfl).bind fun opened s₁ hopen => ?_
  obtain ⟨u₁, hsu₁, -, hus₁⟩ := hopen
  have hs₁ := hsu₁.trans hus₁
  split
  · exact Prog.gives_throw
  refine status_gives.bind fun before s₂ hbefore => ?_
  obtain ⟨u, f, hs₁u, hfile, rfl, hus₂⟩ := hbefore
  have hsu := hs₁.trans hs₁u
  split
  · exact Prog.gives_throw
  refine Prog.Gives.bind (readLines_gives hfile f.content.length 0 (by omega) ⟨.start, .empty, []⟩ hus₂)
    fun r s₃ hmid => ?_
  obtain ⟨hus₃, hloop⟩ := hmid
  refine status_rely.bind fun after s₄ hs₃s₄ => ?_
  refine status_rely.bind fun named s₅ hs₄s₅ => ?_
  have hus₅ := (hus₃.trans hs₃s₄).trans hs₄s₅
  split
  · exact Prog.gives_pure fun t ht ps h => by cases h
  split
  · exact Prog.gives_throw
  next proofs hproven =>
  obtain ⟨t₀, ht₀, hfinish⟩ := Option.bind_eq_some_iff.mp hproven
  obtain ⟨r', rfl, hr'⟩ := Option.bind_eq_some_iff.mp ht₀
  obtain ⟨chunks, hsplits, hall⟩ := hloop r' rfl
  have hevidence : evidenceOf env binding f.content = some proofs := by
    apply proven_of_loop hsplits hall
    rw [hr']
    exact hfinish
  refine Prog.Gives.bind (ask_quiet fun t a v _ h => ?_) fun synced s₆ hsync => ?_
  · cases h with
    | sync hfile | syncsPart hfile => exact quiet_write hfile (SessionFile.grows_sync _)
    | syncFails => exact .refl _
  obtain ⟨v, w, hs₅v, hdoes, hs₅w, hws₆⟩ := hsync
  cases hdoes with
  | syncFails | syncsPart =>
    refine Prog.Gives.bind (ask_quiet fun t a v _ h => ?_) fun _ _ _ => Prog.gives_throw
    cases h
    exact quiet_poison
  | @sync _ g hg =>
    -- At the synchronisation the file holds at least what was read.
    obtain ⟨g', hg', hgrows⟩ := (hus₅.trans hs₅v).grows.files _ f hfile
    obtain rfl := Option.some.inj (hg.symm.trans hg')
    have hstored : Stored (v.write binding.sessionFile g.sync) binding.sessionFile f.content.length :=
      ⟨g.sync, Function.update_self .., hgrows.content.length_le⟩
    have hseen : Seen env i binding.sessionFile proofs s s₆ :=
      ⟨u, f, binding, hsu, (hus₅.trans hs₅w).trans hws₆, hfile, rfl, hevidence,
        hstored.grows hws₆.grows⟩
    refine status_rely.bind fun durable s₇ hs₆s₇ => ?_
    refine status_rely.bind fun durableName s₈ hs₇s₈ => ?_
    have hs₆s₈ := hs₆s₇.trans hs₇s₈
    split
    · exact Prog.gives_pure fun t ht ps h => by cases h
    · refine Prog.gives_pure fun t ht ps h => ?_
      cases h
      exact hseen.rely (hs₆s₈.trans ht)

theorem attempts_gives (n : Nat) : (attempts env binding n).Gives (quiet env i) s fun ps t =>
    Seen env i binding.sessionFile ps s t := by
  induction n generalizing s with
  | zero => exact Prog.gives_throw
  | succ n ih =>
    unfold attempts
    refine (relying attempt_gives).bind fun v t hv => ?_
    obtain ⟨hst, hseen⟩ := hv
    cases v with
    | none => exact ih.imp fun ps u h => h.since hst
    | some ps => exact Prog.gives_pure fun u hu => (hseen ps rfl).rely hu

theorem readEvidence_gives : (readEvidence env root binding).Gives (quiet env i) s fun ps t =>
    Seen env i binding.sessionFile ps s t := by
  unfold readEvidence
  split
  · exact Prog.gives_throw
  · refine (ask_reads fun t a u h => by cases h; rfl).bind fun ok t hmid => ?_
    obtain ⟨u, hsu, -, hut⟩ := hmid
    split
    · exact Prog.gives_throw
    · exact (attempts_gives 8).imp fun ps v h => h.since (hsu.trans hut)

/-- A result is cached where the identity of the file is the same before and after: then it
is the evidence of a content of that size. -/
theorem scan_gives {before : FileIdentity} {f : SessionFile} (hus : Rely env i u s)
    (hfile : u.files binding.sessionFile = some f) (hbefore : before = identityOf f.status) :
    (scan env root binding before).Gives (quiet env i) s fun ps t =>
      Seen env i binding.sessionFile ps s t := by
  unfold scan
  refine readEvidence_gives.bind fun ps s₁ hseen => ?_
  refine identity_gives.bind fun after s₂ hafter => ?_
  obtain ⟨u₂, g₂, hs₁u₂, hg₂, rfl, hu₂s₂⟩ := hafter
  have hseen₂ := hseen.rely (hs₁u₂.trans hu₂s₂)
  split
  · exact Prog.gives_pure fun t ht => hseen₂.rely ht
  · next hsame =>
    have hsame : before = identityOf g₂.status := not_not.mp hsame
    have hstore : ∀ t, Rely env i s₂ t →
        (CacheEntry.mk (identityOf g₂.status) ps).Holds env t binding.sessionFile := by
      intro t hs₂t
      obtain ⟨v, g, b, hsv, hvs₁, hg, hb, hps, hstored⟩ := hseen
      -- The sizes before and after enclose the size of what was read.
      obtain ⟨g', hg', hfg⟩ := (hus.trans hsv).grows.files _ f hfile
      obtain rfl := Option.some.inj (hg.symm.trans hg')
      obtain ⟨g₂', hg₂', hgg₂⟩ := (hvs₁.trans hs₁u₂).grows.files _ g hg
      obtain rfl := Option.some.inj (hg₂.symm.trans hg₂')
      have hlower := hfg.content.length_le
      have hupper := hgg₂.content.length_le
      have hequal : f.content.length = g₂.content.length := by
        have := hbefore.symm.trans hsame
        exact congrArg FileIdentity.size this
      have hsize : g₂.content.length = g.content.length := by omega
      have hst := (hs₁u₂.trans hu₂s₂).trans hs₂t
      refine ⟨?_, ?_⟩
      · show Stored t binding.sessionFile g₂.content.length
        rw [hsize]
        exact hstored.grows hst.grows
      · obtain ⟨g₃, hg₃, hgg₃⟩ := (hvs₁.trans hst).grows.files _ g hg
        refine ⟨g₃, b, hg₃, hb, ?_⟩
        show evidenceOf env b (g₃.content.take g₂.content.length) = some ps
        rw [hsize, hgg₃.take (le_refl _), List.take_length]
        exact hps
    refine (ask_quiet fun t a v hs₂t h => ?_).bind fun _ s₃ hmid => ?_
    · cases h
      exact quiet_store (hstore t hs₂t)
    · obtain ⟨v, w, -, -, hs₂w, hws₃⟩ := hmid
      exact Prog.gives_pure fun t ht => hseen₂.rely ((hs₂w.trans hws₃).trans ht)

/-- A cached entry whose identity is that of the file is what the file shows. -/
theorem lookUp_gives (hs : s.Sound env) : (lookUp env root binding).Gives (quiet env i) s fun ps t =>
    Seen env i binding.sessionFile ps s t := by
  unfold lookUp
  refine identity_gives.bind fun before s₁ hbefore => ?_
  obtain ⟨u, f, hsu, hfile, hbefore, hus₁⟩ := hbefore
  have hscan : ∀ t, Rely env i s₁ t → (scan env root binding before).Gives (quiet env i) t
      fun ps v => Seen env i binding.sessionFile ps s v := fun t hs₁t =>
    (scan_gives (hus₁.trans hs₁t) hfile hbefore).imp fun ps v h =>
      h.since ((hsu.trans hus₁).trans hs₁t)
  refine (ask_reads fun t a v h => by cases h; rfl).bind fun cached s₂ hcached => ?_
  obtain ⟨v, hs₁v, hdoes, hvs₂⟩ := hcached
  have hs₁s₂ := hs₁v.trans hvs₂
  cases hdoes with
  | cached =>
    cases hentry : v.index.cache binding.sessionFile with
    | none => exact hscan s₂ hs₁s₂
    | some entry =>
      simp only
      split
      · exact hscan s₂ hs₁s₂
      · next hidentity =>
        have hidentity : entry.identity = identityOf f.status := hbefore ▸ not_not.mp hidentity
        have hseen : Seen env i binding.sessionFile entry.proofs s s₂ := by
          have huv := hus₁.trans hs₁v
          have hv : v.Sound env := (hsu.trans huv).sound hs
          obtain ⟨hstored, g, b, hg, hb, hps⟩ := hv _ _ hentry
          obtain ⟨g', hg', hfg⟩ := huv.grows.files _ f hfile
          obtain rfl := Option.some.inj (hg.symm.trans hg')
          have hsize : entry.identity.size = f.content.length := by rw [hidentity]; rfl
          rw [hsize] at hstored hps
          rw [hfg.take (le_refl _), List.take_length] at hps
          exact ⟨u, f, b, hsu, huv.trans hvs₂, hfile, hb, hps, hstored.grows hvs₂.grows⟩
        refine (relying identity_gives).bind fun after s₃ hafter => ?_
        split
        · exact hscan s₃ (hs₁s₂.trans hafter.1)
        · exact Prog.gives_pure fun t ht => hseen.rely (hafter.1.trans ht)

/-- `evidence` answers with what the file shows meanwhile, and not for a file that was poisoned
before. -/
theorem evidence_gives (hs : s.Sound env) : (evidence env root binding).Gives (quiet env i) s fun ps t =>
    binding.sessionFile ∉ s.index.poisoned ∧ Seen env i binding.sessionFile ps s t := by
  unfold evidence
  refine (ask_reads fun t a u h => by cases h; rfl).bind fun poisoned s₁ hmid => ?_
  obtain ⟨u, hsu, hdoes, hus₁⟩ := hmid
  cases hdoes
  split
  · exact Prog.gives_throw
  · next hclean =>
    have hclean : binding.sessionFile ∉ s.index.poisoned := fun hp =>
      hclean (List.contains_iff_mem.mpr (hsu.grows.poisoned _ hp))
    have hss₁ := hsu.trans hus₁
    refine Prog.Gives.orElse ((lookUp_gives (hss₁.sound hs)).imp fun ps t h =>
      ⟨hclean, h.since hss₁⟩) fun code t => ?_
    refine (ask_quiet fun t a v _ h => ?_).bind fun _ _ _ => Prog.gives_throw
    cases h
    exact quiet_poison

end WhatsAppMcp.Controller.Pi.FileIndex
