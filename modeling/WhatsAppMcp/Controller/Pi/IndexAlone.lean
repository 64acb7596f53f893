import WhatsAppMcp.Controller.Pi.FileIndex

/-!
# Calls made alone

Where no system call fails and nothing else moves, the calls of the completion index come
to an end with what the file says.

* `evidence_alone`: the evidence of a file that is not cached is what its content proves.
* `appendCompletion_alone`: a new marker is appended, synchronised, found and returned.
* `rebuild_alone`, `findEvent_alone`: a lookup has the evidence of the file.

The files are those that one read returns.  `SampleIndex` is one of them: a header, a
binding and a completion.
-/

namespace WhatsAppMcp.Controller.Pi.FileIndex

open Calls

variable {env : Runtime} {root : String} {canonical : List String} {s t : World} {f : SessionFile}

/-- What task `me` is answered where nothing fails and `line` is what an append writes. -/
def respond (me : Nat) (id : String) (line : List UInt8) (s : World) :
    (q : Query) → Option (q.Answer × World)
  | .row chat => some (some (s.bindings chat), s)
  | .enter => if s.lock = none then some ((), { s with lock := some me }) else none
  | .leave => some ((), { s with lock := none })
  | .isPoisoned path => some (s.index.poisoned.contains path, s)
  | .isPending path => some (s.index.isPending path, s)
  | .cached path => some (s.index.cache path, s)
  | .store path entry => some ((), { s with index := s.index.store path entry })
  | .poison path => some ((), { s with index := s.index.poison path })
  | .reserve path => (s.index.reserve me path).map fun x => (true, { s with index := x })
  | .publish path => (s.index.publish path).map fun x => (true, { s with index := x })
  | .directories _ | .opens _ | .current => some (true, s)
  | .status path => (s.files path).map fun f => (some f.status, s)
  | .read path offset length =>
    (s.files path).map fun f => (some ((f.content.drop offset).take length), s)
  | .sync path => (s.files path).map fun f => (true, s.write path f.sync)
  | .append path _ => (s.files path).map fun f => (some id, s.write path (f.append line f.mtimeNs))

theorem respond_does (me : Nat) (id : String) (line : List UInt8) (s : World) (q : Query)
    (a : q.Answer) (t : World) (h : respond me id line s q = some (a, t)) : Does me s q a t := by
  cases q with
  | enter =>
    change (if s.lock = none then some ((), { s with lock := some me }) else none) = some (a, t) at h
    split at h
    · next hfree =>
      cases h
      exact .enter hfree
    · cases h
  | reserve path =>
    obtain ⟨x, hx, heq⟩ := Option.map_eq_some_iff.mp h
    cases heq
    exact .reserve hx
  | publish path =>
    obtain ⟨x, hx, heq⟩ := Option.map_eq_some_iff.mp h
    cases heq
    exact .publish hx
  | status path =>
    obtain ⟨f, hf, heq⟩ := Option.map_eq_some_iff.mp h
    cases heq
    exact .status hf
  | read path offset length =>
    obtain ⟨f, hf, heq⟩ := Option.map_eq_some_iff.mp h
    cases heq
    exact .read hf (List.prefix_refl _)
  | sync path =>
    obtain ⟨f, hf, heq⟩ := Option.map_eq_some_iff.mp h
    cases heq
    exact .sync hf
  | append path marker =>
    obtain ⟨f, hf, heq⟩ := Option.map_eq_some_iff.mp h
    cases heq
    exact .append hf _ _ _
  | row | leave | isPoisoned | isPending | cached | store | poison | directories | opens | current =>
    cases h
    constructor

section Alone

variable {binding : SessionBinding} {ps : List StoredProof} {me : Nat} {id : String}
  {line : List UInt8} {α : Type}

/-! ## Reading a file -/

theorem status_alone {g : FileStatus → Job α} {path : String} (hfile : s.files path = some f) :
    (status path >>= g).play (respond me id line) s = (g f.status).play (respond me id line) s := by
  apply Prog.play_bind
  show ((s.files path).map fun f => (some f.status, s)).bind _ = _
  rw [hfile]
  rfl

/-- The content comes in one read. -/
theorem readLines_alone {r r' : LineReader EvidenceScan} (hfile : s.files binding.sessionFile = some f)
    (hne : f.content ≠ []) (hsize : f.content.length ≤ 65536)
    (hfeed : LineReader.feed (fun _ => true) (consume env binding) r f.content = some r') :
    (readLines env binding f.content.length 0 r).play (respond me id line) s = some (.ok (some r'), s) := by
  have hlength : f.content.length ≠ 0 := fun h => hne (List.eq_nil_of_length_eq_zero h)
  have hread : respond me id line s (.read binding.sessionFile 0 (min f.content.length 65536)) =
      some (some f.content, s) := by
    show (s.files binding.sessionFile).map _ = _
    rw [hfile, Option.map_some, List.drop_zero, Nat.min_eq_left hsize, List.take_length]
  rw [readLines, if_neg hlength]
  show (respond me id line s (.read binding.sessionFile 0 (min f.content.length 65536))).bind _ = _
  rw [hread]
  show (if f.content = [] then pure none else _ : Job (Option (LineReader EvidenceScan))).play _ s = _
  rw [if_neg hne, hfeed, Nat.sub_self]
  show (readLines env binding 0 _ r').play (respond me id line) s = _
  rw [readLines, if_pos rfl]
  rfl

/-- What the reader comes to on a content that is evidence. -/
theorem feed_of_evidence (h : evidenceOf env binding f.content = some ps) :
    ∃ r t, LineReader.feed (fun _ => true) (consume env binding) ⟨.start, .empty, []⟩ f.content = some r ∧
      r.finish = some t ∧ t.proven = some ps := by
  have hne := (evidenceOf_some h).1
  have hsplits : LineReader.Splits f.content [f.content] := ⟨List.flatten_singleton, by simpa using hne⟩
  have hread : LineReader.read (fun _ => true) (consume env binding) .empty f.content.length [f.content] =
      _ := LineReader.read_eq hsplits _
  have hall : (LineReader.read (fun _ => true) (consume env binding) .empty f.content.length
      [f.content]).bind EvidenceScan.proven = some ps := by
    rw [hread, Option.bind_assoc]
    exact h
  obtain ⟨t, ht, hproven⟩ := Option.bind_eq_some_iff.mp hall
  obtain ⟨r, hloop, hfinish⟩ := Option.bind_eq_some_iff.mp ht
  rw [LineReader.loop_eq hsplits] at hloop
  exact ⟨r, t, by simpa using hloop, hfinish, hproven⟩

theorem attempt_alone (hfile : s.files binding.sessionFile = some f) (hsize : f.content.length ≤ 65536)
    (h : evidenceOf env binding f.content = some ps) :
    (attempt env binding).play (respond me id line) s =
      some (.ok (some ps), s.write binding.sessionFile f.sync) := by
  obtain ⟨r, t, hfeed, hfinish, hproven⟩ := feed_of_evidence h
  have hne := (evidenceOf_some h).1
  have hsynced : (s.write binding.sessionFile f.sync).files binding.sessionFile = some f.sync :=
    Function.update_self ..
  have hsync : respond me id line s (.sync binding.sessionFile) =
      some (true, s.write binding.sessionFile f.sync) := by
    show (s.files binding.sessionFile).map _ = _
    rw [hfile]
    rfl
  have hempty : ¬ (!f.status.isFile || f.status.size = 0) = true := by
    simpa [SessionFile.status] using hne
  unfold attempt
  show (status binding.sessionFile >>= _).play (respond me id line) s = _
  rw [status_alone hfile, if_neg hempty]
  show (readLines env binding f.content.length 0 ⟨.start, .empty, []⟩ >>= _).play _ s = _
  have hall : ((some r).bind LineReader.finish).bind EvidenceScan.proven = some ps := by
    rw [Option.bind_some, hfinish]
    exact hproven
  rw [Prog.play_bind (readLines_alone hfile hne hsize hfeed), status_alone hfile, status_alone hfile,
    if_neg (by simp [FileStatus.unchanged, FileStatus.same]), hall]
  show (respond me id line s (.sync binding.sessionFile)).bind _ = _
  rw [hsync]
  show (status binding.sessionFile >>= _).play (respond me id line) _ = _
  rw [status_alone hsynced, status_alone hsynced,
    if_neg (by simp [FileStatus.unchanged, FileStatus.same, SessionFile.status, SessionFile.sync])]
  rfl

theorem readEvidence_alone (hpath : sessionPath root binding = true)
    (hfile : s.files binding.sessionFile = some f) (hsize : f.content.length ≤ 65536)
    (h : evidenceOf env binding f.content = some ps) :
    (readEvidence env root binding).play (respond me id line) s =
      some (.ok ps, s.write binding.sessionFile f.sync) := by
  have hattempts : (attempts env binding 8).play (respond me id line) s =
      some (.ok ps, s.write binding.sessionFile f.sync) := by
    show (attempt env binding >>= _).play (respond me id line) s = _
    rw [Prog.play_bind (attempt_alone hfile hsize h)]
    rfl
  unfold readEvidence
  rw [if_neg (by simp [hpath])]
  exact hattempts

theorem identity_alone (hpath : sessionPath root binding = true)
    (hfile : s.files binding.sessionFile = some f) :
    (identity root binding).play (respond me id line) s = some (.ok (identityOf f.status), s) := by
  unfold identity
  rw [if_neg (by simp [hpath]), status_alone hfile]
  rfl

/-- The world after the evidence of a file was read for the first time. -/
def World.learn (s : World) (path : String) (f : SessionFile) (ps : List StoredProof) : World :=
  { s.write path f.sync with index := s.index.store path ⟨identityOf f.status, ps⟩ }

/-- Where nothing else moves, the evidence of a file that is not cached is what its content
proves. -/
theorem evidence_alone (hpath : sessionPath root binding = true)
    (hclean : binding.sessionFile ∉ s.index.poisoned)
    (hcache : s.index.cache binding.sessionFile = none)
    (hfile : s.files binding.sessionFile = some f) (hsize : f.content.length ≤ 65536)
    (h : evidenceOf env binding f.content = some ps) :
    (evidence env root binding).play (respond me id line) s =
      some (.ok ps, s.learn binding.sessionFile f ps) := by
  have hsynced : (s.write binding.sessionFile f.sync).files binding.sessionFile = some f.sync :=
    Function.update_self ..
  have hscan : (scan env root binding (identityOf f.status)).play (respond me id line) s =
      some (.ok ps, s.learn binding.sessionFile f ps) := by
    unfold scan
    rw [Prog.play_bind (readEvidence_alone hpath hfile hsize h),
      Prog.play_bind (identity_alone hpath hsynced)]
    show (if identityOf f.status ≠ identityOf f.status then pure ps else _ : Job _).play _ _ = _
    rw [if_neg (not_not.mpr rfl)]
    rfl
  have hlookUp : (lookUp env root binding).play (respond me id line) s =
      some (.ok ps, s.learn binding.sessionFile f ps) := by
    have hcached : (ask (.cached binding.sessionFile)).play (respond me id line) s =
        some (.ok none, s) := congrArg (fun c => some (Except.ok c, s)) hcache
    unfold lookUp
    rw [Prog.play_bind (identity_alone hpath hfile), Prog.play_bind hcached]
    exact hscan
  unfold evidence
  show (if s.index.poisoned.contains binding.sessionFile = true then fail else _ : Job _).play _ s = _
  rw [if_neg (by simp [hclean])]
  exact Prog.play_tryCatch hlookUp

/-! ## The calls -/

theorem reserve_alone {x : Index} {path : String} (h : s.index.reserve me path = some x) :
    (ask (.reserve path)).play (respond me id line) s = some (.ok true, { s with index := x }) := by
  show ((s.index.reserve me path).map _).bind _ = _
  rw [h]
  rfl

theorem publish_alone {x : Index} {path : String} (h : s.index.publish path = some x) :
    (ask (.publish path)).play (respond me id line) s = some (.ok true, { s with index := x }) := by
  show ((s.index.publish path).map _).bind _ = _
  rw [h]
  rfl

theorem sync_alone {path : String} (hfile : s.files path = some f) :
    (ask (.sync path)).play (respond me id line) s = some (.ok true, s.write path f.sync) := by
  show ((s.files path).map _).bind _ = _
  rw [hfile]
  rfl

theorem append_alone {path : String} {marker : StoredMarker} (hfile : s.files path = some f) :
    (ask (.append path marker)).play (respond me id line) s =
      some (.ok (some id), s.write path (f.append line f.mtimeNs)) := by
  show ((s.files path).map _).bind _ = _
  rw [hfile]
  rfl

theorem exclusive_alone {job : Job α} {a : α} (hlock : s.lock = none)
    (h : job.play (respond me id line) { s with lock := some me } = some (.ok a, t)) :
    (exclusive job).play (respond me id line) s = some (.ok a, { t with lock := none }) := by
  have henter : (ask .enter).play (respond me id line) s = some (.ok (), { s with lock := some me }) := by
    show (if s.lock = none then some ((), { s with lock := some me }) else none).bind _ = _
    rw [if_pos hlock]
    rfl
  have houtcome : (outcome job).play (respond me id line) { s with lock := some me } =
      some (.ok (.ok a), t) := by
    apply Prog.play_tryCatch
    rw [Prog.play_bind h]
    rfl
  unfold exclusive
  rw [Prog.play_bind henter, Prog.play_bind houtcome]
  rfl

/-- Nothing of the index is in the way of a first lookup in the file. -/
structure World.Fresh (s : World) (path : String) : Prop where
  lock : s.lock = none
  clean : path ∉ s.index.poisoned
  pending : s.index.pending = []
  cache : s.index.cache path = none

theorem World.restarted_fresh (s : World) (path : String) : s.restarted.Fresh path :=
  ⟨rfl, List.not_mem_nil, rfl, rfl⟩

/-- The world after the file was reserved. -/
def World.reserved (s : World) (me : Nat) (path : String) (f : SessionFile) (ps : List StoredProof) :
    World :=
  { s.learn path f ps with
    index := ⟨s.index.poisoned, [(path, me)], Function.update (s.learn path f ps).index.cache path none⟩
    lock := none }

theorem reserveFor_alone {marker : StoredMarker} (hfresh : s.Fresh binding.sessionFile)
    (hpath : sessionPath root binding = true) (hfile : s.files binding.sessionFile = some f)
    (hsize : f.content.length ≤ 65536) (h : evidenceOf env binding f.content = some ps)
    (hnew : ps.find? (fun p => p.marker.eventId = marker.eventId) = none) :
    (exclusive (reserveFor env root binding marker)).play (respond me id line) s =
      some (.ok none, s.reserved me binding.sessionFile f ps) := by
  let t : World := s.reserved me binding.sessionFile f ps
  refine exclusive_alone (t := { t with lock := some me }) hfresh.lock ?_
  have hread : (evidence env root binding).play (respond me id line) { s with lock := some me } = _ :=
    evidence_alone hpath hfresh.clean hfresh.cache hfile hsize h
  have hreserve : (({ s with lock := some me } : World).learn binding.sessionFile f ps).index.reserve me
      binding.sessionFile = some t.index := by
    simp [Index.reserve, Index.isPending, World.learn, Index.store, hfresh.clean, hfresh.pending, t,
      World.reserved]
  unfold reserveFor
  rw [Prog.play_bind hread, hnew]
  show (ask (.reserve binding.sessionFile) >>= _).play _ _ = _
  rw [Prog.play_bind (reserve_alone hreserve)]
  rfl

theorem appendSynced_alone {marker : StoredMarker} (hfile : s.files binding.sessionFile = some f) :
    (appendSynced binding marker).play (respond me id line) s =
      some (.ok id, s.write binding.sessionFile (f.append line f.mtimeNs).sync) := by
  have hwritten : (s.write binding.sessionFile (f.append line f.mtimeNs)).files binding.sessionFile =
      some (f.append line f.mtimeNs) := Function.update_self ..
  have happend : (ask (.append binding.sessionFile marker) >>= need).play (respond me id line) s =
      some (.ok id, s.write binding.sessionFile (f.append line f.mtimeNs)) := by
    rw [Prog.play_bind (append_alone hfile)]
    rfl
  have hsync : (ask (.sync binding.sessionFile)).play (respond me id line)
      (s.write binding.sessionFile (f.append line f.mtimeNs)) = _ := sync_alone hwritten
  have htwice : (s.write binding.sessionFile (f.append line f.mtimeNs)).write binding.sessionFile
      (f.append line f.mtimeNs).sync = s.write binding.sessionFile (f.append line f.mtimeNs).sync := by
    simp [World.write]
  rw [htwice] at hsync
  unfold appendSynced
  show ((ask (.append binding.sessionFile marker) >>= need) >>= _).play _ _ = _
  rw [Prog.play_bind happend]
  show (ask (.sync binding.sessionFile) >>= _).play _ _ = _
  rw [Prog.play_bind hsync]
  rfl

theorem publishAs_alone {marker : StoredMarker} {p : StoredProof} (hlock : s.lock = none)
    (hpath : sessionPath root binding = true) (hclean : binding.sessionFile ∉ s.index.poisoned)
    (hpending : s.index.isPending binding.sessionFile = true)
    (hcache : s.index.cache binding.sessionFile = none)
    (hfile : s.files binding.sessionFile = some f) (hsize : f.content.length ≤ 65536)
    (h : evidenceOf env binding f.content = some ps)
    (hfound : ps.find? (fun p => p.entryId = id) = some p) (hmarker : p.marker = marker) :
    ∃ t, (exclusive (publishAs env root binding marker id)).play (respond me id line) s =
      some (.ok p, t) ∧ t.bindings = s.bindings ∧ t.files binding.sessionFile = some f.sync := by
  let learned : World := ({ s with lock := some me } : World).learn binding.sessionFile f ps
  let x : Index := { learned.index with
    pending := learned.index.pending.filter fun r => r.1 ≠ binding.sessionFile }
  have hread : (evidence env root binding).play (respond me id line) { s with lock := some me } =
      some (.ok ps, learned) := evidence_alone hpath hclean hcache hfile hsize h
  have hpublish : learned.index.publish binding.sessionFile = some x := by
    have hpending' : learned.index.isPending binding.sessionFile = true := hpending
    have hclean' : learned.index.poisoned.contains binding.sessionFile = false := by
      simpa [learned, World.learn, Index.store] using hclean
    rw [Index.publish, hpending', hclean']
    rfl
  have hjob : (publishAs env root binding marker id).play (respond me id line)
      { s with lock := some me } = some (.ok p, { learned with index := x }) := by
    unfold publishAs
    rw [Prog.play_bind hread, hfound]
    show (if p.marker ≠ marker then fail else _ : Job _).play _ _ = _
    rw [if_neg (not_not.mpr hmarker)]
    show (ask (.publish binding.sessionFile) >>= _).play _ _ = _
    rw [Prog.play_bind (publish_alone hpublish)]
    rfl
  exact ⟨_, exclusive_alone hlock hjob, rfl, Function.update_self ..⟩

/-- Where nothing else moves and the marker is new, the file that `appendCompletion` leaves has
the line of the marker, and all of it is on stable storage. -/
theorem appendCompletion_alone {marker : StoredMarker} {qs : List StoredProof} {p : StoredProof}
    (hfresh : s.Fresh binding.sessionFile) (hpath : sessionPath root binding = true)
    (hfile : s.files binding.sessionFile = some f)
    (hsize : f.content.length + line.length ≤ 65536)
    (hbefore : evidenceOf env binding f.content = some ps)
    (hnew : ps.find? (fun p => p.marker.eventId = marker.eventId) = none)
    (hafter : evidenceOf env binding (f.content ++ line) = some qs)
    (hfound : qs.find? (fun p => p.entryId = id) = some p) (hmarker : p.marker = marker) :
    ∃ t, (appendCompletion env root binding marker).play (respond me id line) s = some (.ok p, t) ∧
      t.bindings = s.bindings ∧
        t.files binding.sessionFile = some (f.sync.append line f.mtimeNs).sync.sync := by
  let reserved : World := s.reserved me binding.sessionFile f ps
  let appended : World := reserved.write binding.sessionFile (f.sync.append line f.mtimeNs).sync
  have hreserve : (exclusive (reserveFor env root binding marker)).play (respond me id line) s =
      some (.ok none, reserved) := reserveFor_alone hfresh hpath hfile (by omega) hbefore hnew
  have hreserved : reserved.files binding.sessionFile = some f.sync := Function.update_self ..
  have happend : (appendSynced binding marker).play (respond me id line) reserved =
      some (.ok id, appended) := appendSynced_alone hreserved
  have hsize' : (f.sync.append line f.mtimeNs).sync.content.length ≤ 65536 := by
    simpa [SessionFile.sync, SessionFile.append] using hsize
  have hpending : appended.index.isPending binding.sessionFile = true := by
    simp [appended, reserved, World.reserved, World.write, Index.isPending]
  obtain ⟨t, hpublish, hbindings, ht⟩ : ∃ t, (exclusive (publishAs env root binding marker id)).play
      (respond me id line) appended = some (.ok p, t) ∧ t.bindings = appended.bindings ∧ _ :=
    publishAs_alone rfl hpath hfresh.clean hpending (Function.update_self ..) (Function.update_self ..)
      hsize' hafter hfound hmarker
  refine ⟨t, ?_, hbindings, ht⟩
  unfold appendCompletion
  show (exclusive (reserveFor env root binding marker) >>= _).play _ _ = _
  rw [Prog.play_bind hreserve]
  apply Prog.play_tryCatch
  unfold appendReserved
  rw [Prog.play_bind happend]
  exact hpublish

/-- Where nothing else moves and one chat is bound, `rebuild` has the evidence of its file. -/
theorem rebuild_alone {chat : String} (hfresh : s.Fresh binding.sessionFile)
    (hpath : sessionPath root binding = true) (hown : binding.canonicalChatId = chat)
    (hbound : s.bindings chat = some binding) (hfile : s.files binding.sessionFile = some f)
    (hsize : f.content.length ≤ 65536) (h : evidenceOf env binding f.content = some ps)
    (hunique : (ps.map fun p => p.marker.eventId).Nodup) :
    (rebuild env root [chat]).play (respond me id line) s =
      some (.ok ps, { ({ s with lock := some me } : World).learn binding.sessionFile f ps with
        lock := none }) := by
  let locked : World := { s with lock := some me }
  have hlist : (list [chat]).play (respond me id line) s = some (.ok [(chat, some binding)], s) := by
    have hrow : (ask (.row chat)).play (respond me id line) s = some (.ok (some (some binding)), s) :=
      congrArg (fun b => some (Except.ok (some b), s)) hbound
    show (ask (.row chat) >>= _).play _ _ = _
    rw [Prog.play_bind hrow]
    show (if ((some binding).any fun b => b.canonicalChatId ≠ chat) = true then fail else _ :
      Job _).play _ _ = _
    rw [if_neg (by simp [hown])]
    rfl
  have hsnapshot : (snapshot root [chat]).play (respond me id line) s =
      some (.ok [(chat, some binding)], s) := by
    have hchecked : checkedRows root [chat] [(chat, some binding)] = true := by
      simp [checkedRows, hpath, hown]
    unfold snapshot
    rw [Prog.play_bind hlist, if_pos hchecked]
    rfl
  have hcollect : (collect env root [(chat, some binding)] []).play (respond me id line) locked =
      some (.ok ps, locked.learn binding.sessionFile f ps) := by
    have hfree : (ask (.isPending binding.sessionFile)).play (respond me id line) locked =
        some (.ok false, locked) := by
      have : locked.index.isPending binding.sessionFile = false := by
        simp [Index.isPending, locked, hfresh.pending]
      exact congrArg (fun b => some (Except.ok b, locked)) this
    have hread : (evidence env root binding).play (respond me id line) locked = _ :=
      evidence_alone hpath hfresh.clean hfresh.cache hfile hsize h
    unfold collect
    rw [Prog.play_bind hfree, if_neg Bool.false_ne_true, Prog.play_bind hread, List.nil_append,
      if_pos hunique]
    rfl
  unfold rebuild
  rw [Prog.play_bind hsnapshot]
  exact exclusive_alone hfresh.lock hcollect

theorem findEvent_alone {chat event : String}
    (h : (rebuild env root [chat]).play (respond me id line) s = some (.ok ps, t)) :
    (findEvent env root [chat] chat event).play (respond me id line) s =
      some (.ok (ps.find? fun p => p.marker.canonicalChatId = chat && p.marker.eventId = event), t) := by
  unfold findEvent
  rw [if_neg (by simp), Prog.play_bind (Prog.play_tryCatch h)]
  rfl

/-- A call that is made alone in a process that has just started. -/
theorem run_alone {call : Call} {v : Value}
    (hplay : (program env root canonical 0 call).play (respond 0 id line) s.restarted = some (.ok v, t)) :
    ∃ es p, Runs env root canonical s es p ∧ p.tasks 0 = some ⟨call, s.restarted, .done v⟩ ∧
      p.world = t :=
  Team.exec_call (respond_does 0 id line) rfl hplay

end Alone

/-! ## A file with a completion -/

namespace SampleIndex

def marker : StoredMarker where
  eventId := "0123456789abcdef0123456789abcdef"
  eventFingerprint := "sha256:v1:0000000000000000000000000000000000000000000000000000000000000000"
  canonicalChatId := "49@g.us"
  chatSequence := 1
  completion := .turn
  completedAt := SampleFile.created
  confirmedSends := []

def proof : StoredProof := ⟨marker, "b", SampleFile.binding⟩

def headerLine : String :=
  "\x7b\"type\":\"session\",\"version\":3,\"id\":\"s1\",\"cwd\":\"/\",\"timestamp\":\"2026-01-01T00:00:00Z\"\x7d"

def header : Fields :=
  [("type", .string "session"), ("version", .number "3"), ("id", .string "s1"), ("cwd", .string "/"),
    ("timestamp", .string SampleFile.created)]

def bindingEntry : Fields :=
  [("type", .string "custom"), ("id", .string "a"), ("parentId", .null),
    ("timestamp", .string SampleFile.created), ("customType", .string bindingType),
    ("data", .object [("canonicalChatId", .string "49@g.us"), ("sessionId", .string "s1"),
      ("sessionFile", .string "/s/a.jsonl")])]

def completionLine : String :=
  "\x7b\"type\":\"custom\",\"id\":\"b\",\"parentId\":\"a\",\"timestamp\":\"2026-01-01T00:00:00Z\",\"customType\":\"whatsapp.controller.completed.v1\",\"data\":\x7b\"version\":1,\"eventId\":\"0123456789abcdef0123456789abcdef\",\"eventFingerprint\":\"sha256:v1:0000000000000000000000000000000000000000000000000000000000000000\",\"canonicalChatId\":\"49@g.us\",\"chatSequence\":1,\"completion\":\"turn\",\"completedAt\":\"2026-01-01T00:00:00Z\",\"confirmedSends\":[]\x7d\x7d"

def completionEntry : Fields :=
  [("type", .string "custom"), ("id", .string "b"), ("parentId", .string "a"),
    ("timestamp", .string SampleFile.created), ("customType", .string completionType),
    ("data", .object [("version", .number "1"), ("eventId", .string marker.eventId),
      ("eventFingerprint", .string marker.eventFingerprint), ("canonicalChatId", .string "49@g.us"),
      ("chatSequence", .number "1"), ("completion", .string "turn"),
      ("completedAt", .string SampleFile.created), ("confirmedSends", .array [])])]

def parse (line : String) : Option Json :=
  if line = headerLine then some (.object header)
  else if line = SampleFile.bindingLine then some (.object bindingEntry)
  else if line = completionLine then some (.object completionEntry)
  else none

/-- `JSON.parse` and `Date.parse` on the lines and the times of the file. -/
def runtime : Runtime := ⟨parse, fun text => if text = SampleFile.created then some 1767225600000 else none⟩

theorem consume_header : consume runtime SampleFile.binding .empty headerLine.toList =
    some ⟨true, false, [], [], [], []⟩ := by
  have hparse : runtime.parse (String.ofList headerLine.toList) = some (.object header) := by
    simp [runtime, parse]
  have hheader : isHeader runtime SampleFile.binding header = true := by decide +kernel
  rw [consume_of_parse hparse, if_pos (show (!EvidenceScan.empty.headerSeen) = true from rfl),
    if_pos hheader]
  rfl

theorem consume_binding : consume runtime SampleFile.binding ⟨true, false, [], [], [], []⟩
    SampleFile.bindingLine.toList = some ⟨true, true, ["a"], [], [], []⟩ := by
  have hother : SampleFile.bindingLine ≠ headerLine := by decide +kernel
  have hparse : runtime.parse (String.ofList SampleFile.bindingLine.toList) =
      some (.object bindingEntry) := by
    simp [runtime, parse, hother]
  have hentry : consumeEntry runtime SampleFile.binding ⟨true, false, [], [], [], []⟩ bindingEntry =
      some ⟨true, true, ["a"], [], [], []⟩ := by decide +kernel
  rw [consume_of_parse hparse, if_neg (by decide)]
  exact hentry

theorem consume_completion : consume runtime SampleFile.binding ⟨true, true, ["a"], [], [], []⟩
    completionLine.toList = some ⟨true, true, ["b", "a"], [marker.eventId], [1], [proof]⟩ := by
  have hheader : completionLine ≠ headerLine := by decide +kernel
  have hbinding : completionLine ≠ SampleFile.bindingLine := by decide +kernel
  have hparse : runtime.parse (String.ofList completionLine.toList) = some (.object completionEntry) := by
    simp [runtime, parse, hheader, hbinding]
  have hentry : consumeEntry runtime SampleFile.binding ⟨true, true, ["a"], [], [], []⟩
      completionEntry = some ⟨true, true, ["b", "a"], [marker.eventId], [1], [proof]⟩ := by
    decide +kernel
  rw [consume_of_parse hparse, if_neg (by decide)]
  exact hentry

/-- The text of the file before the completion. -/
def text : List Char :=
  headerLine.toList ++ '\n' :: (SampleFile.bindingLine.toList ++ '\n' :: [])

/-- What the completion appends. -/
def line : List Char := completionLine.toList ++ '\n' :: []

set_option maxRecDepth 4000 in
theorem scan_text : LineReader.consumeText (consume runtime SampleFile.binding) .empty text =
    some ⟨true, true, ["a"], [], [], []⟩ := by
  have hheader : '\n' ∉ headerLine.toList := by
    rw [show headerLine = String.ofList _ from rfl, String.toList_ofList]
    decide +kernel
  have hbinding : '\n' ∉ SampleFile.bindingLine.toList := by
    rw [show SampleFile.bindingLine = String.ofList _ from rfl, String.toList_ofList]
    decide +kernel
  unfold text
  rw [LineReader.consumeText_line hheader, consume_header, Option.bind_some,
    LineReader.consumeText_line hbinding, consume_binding]
  rfl

set_option maxRecDepth 4000 in
theorem scan_line : LineReader.consumeText (consume runtime SampleFile.binding) .empty (text ++ line) =
    some ⟨true, true, ["b", "a"], [marker.eventId], [1], [proof]⟩ := by
  have hcompletion : '\n' ∉ completionLine.toList := by
    rw [show completionLine = String.ofList _ from rfl, String.toList_ofList]
    decide +kernel
  rw [LineReader.consumeText_append scan_text]
  unfold line
  rw [LineReader.consumeText_line hcompletion, consume_completion]
  rfl

set_option maxRecDepth 4000 in
/-- The text does not start with a byte order mark. -/
theorem dropMark_text (more : List Char) : Utf8.dropMark (text ++ more) = text ++ more := by
  have hhead : ∃ rest, headerLine.toList = '\x7b' :: rest := by
    rw [show headerLine = String.ofList _ from rfl, String.toList_ofList]
    exact ⟨_, rfl⟩
  obtain ⟨rest, hrest⟩ := hhead
  unfold text
  rw [hrest]
  rfl

theorem evidence_text : evidenceOf runtime SampleFile.binding (Utf8.encode text) = some [] := by
  have hmark := dropMark_text []
  rw [List.append_nil] at hmark
  rw [evidenceOf_encode hmark, scan_text]
  rfl

theorem evidence_line :
    evidenceOf runtime SampleFile.binding (Utf8.encode text ++ Utf8.encode line) = some [proof] := by
  have happend : Utf8.encode text ++ Utf8.encode line = Utf8.encode (text ++ line) :=
    List.flatMap_append.symm
  rw [happend, evidenceOf_encode (dropMark_text line), scan_line]
  rfl

/-- The file before the completion, none of it on stable storage. -/
def file : SessionFile := ⟨Utf8.encode text, 0, 1, 2, 3, Nat.zero_le _⟩

/-- One chat, which is bound to the file. -/
def world (f : SessionFile) : World where
  files := Function.update (fun _ => none) SampleFile.binding.sessionFile (some f)
  bindings := Function.update (fun _ => none) "49@g.us" (some SampleFile.binding)
  index := .empty
  lock := none

/-- The world with the completion in the file. -/
def completedWorld : World := world (file.append (Utf8.encode line) 3)

set_option maxRecDepth 4000 in
theorem size_line : (Utf8.encode text).length + (Utf8.encode line).length ≤ 65536 := by
  have htext : text.length ≤ 1000 := by
    unfold text
    rw [show headerLine = String.ofList _ from rfl, String.toList_ofList,
      show SampleFile.bindingLine = String.ofList _ from rfl, String.toList_ofList]
    decide +kernel
  have hline : line.length ≤ 1000 := by
    unfold line
    rw [show completionLine = String.ofList _ from rfl, String.toList_ofList]
    decide +kernel
  have := Utf8.length_encode_le text
  have := Utf8.length_encode_le line
  omega

theorem sessionPath_sample : sessionPath "/s" SampleFile.binding = true := by decide +kernel

theorem world_files : (world f).files SampleFile.binding.sessionFile = some f := by simp [world]

theorem world_bindings : (world f).bindings "49@g.us" = some SampleFile.binding := by simp [world]

/-- The completion is appended. -/
theorem completes : ∃ es p, Runs runtime "/s" ["49@g.us"] (world file) es p ∧
    p.tasks 0 = some ⟨.appendCompletion SampleFile.binding marker, (world file).restarted,
      .done (.completed proof)⟩ ∧ p.world.bindings "49@g.us" = some SampleFile.binding ∧
    ∃ f, p.world.files SampleFile.binding.sessionFile = some f ∧
      f.content = Utf8.encode text ++ Utf8.encode line := by
  have hnew : ([] : List StoredProof).find? (fun p => p.marker.eventId = marker.eventId) = none := rfl
  have hfound : [proof].find? (fun p => p.entryId = "b") = some proof := by simp [proof]
  have hsize : file.content.length + (Utf8.encode line).length ≤ 65536 := by
    rw [show file.content = Utf8.encode text from rfl]
    exact size_line
  obtain ⟨t, hplay, hbindings, hfile⟩ : ∃ t, (appendCompletion runtime "/s" SampleFile.binding
      marker).play (respond 0 "b" (Utf8.encode line)) (world file).restarted = some (.ok proof, t) ∧ _ :=
    appendCompletion_alone (World.restarted_fresh ..) sessionPath_sample world_files hsize evidence_text
      hnew evidence_line hfound rfl
  have hcall : (program runtime "/s" ["49@g.us"] 0 (.appendCompletion SampleFile.binding marker)).play
      (respond 0 "b" (Utf8.encode line)) (world file).restarted = some (.ok (.completed proof), t) := by
    unfold program
    rw [Prog.play_bind hplay]
    rfl
  obtain ⟨es, p, hrun, htask, rfl⟩ := run_alone hcall
  refine ⟨es, p, hrun, htask, ?_, _, hfile, rfl⟩
  rw [hbindings]
  exact world_bindings

/-- A lookup in a process that starts where the completion is in the file. -/
theorem rebuilds (hbound : s.bindings "49@g.us" = some SampleFile.binding)
    (hfile : s.files SampleFile.binding.sessionFile = some f)
    (hcontent : f.content = Utf8.encode text ++ Utf8.encode line) :
    ∃ t, (rebuild runtime "/s" ["49@g.us"]).play (respond 0 "" []) s.restarted =
      some (.ok [proof], t) := by
  have hsize : f.content.length ≤ 65536 := by
    have := size_line
    rw [hcontent, List.length_append]
    exact this
  exact ⟨_, rebuild_alone (World.restarted_fresh ..) sessionPath_sample rfl hbound hfile hsize
    (hcontent ▸ evidence_line) (List.nodup_singleton _)⟩

theorem finds (hbound : s.bindings "49@g.us" = some SampleFile.binding)
    (hfile : s.files SampleFile.binding.sessionFile = some f)
    (hcontent : f.content = Utf8.encode text ++ Utf8.encode line) :
    ∃ es p, Runs runtime "/s" ["49@g.us"] s es p ∧ p.tasks 0 =
      some ⟨.findEvent "49@g.us" marker.eventId, s.restarted, .done (.found (some proof))⟩ := by
  obtain ⟨t, hplay⟩ := rebuilds hbound hfile hcontent
  have hcall : (program runtime "/s" ["49@g.us"] 0 (.findEvent "49@g.us" marker.eventId)).play
      (respond 0 "" []) s.restarted = some (.ok (.found (some proof)), t) := by
    have hfound : ([proof].find? fun p => p.marker.canonicalChatId = "49@g.us" &&
        p.marker.eventId = marker.eventId) = some proof := by simp [proof, marker]
    unfold program
    rw [Prog.play_bind (findEvent_alone hplay), hfound]
    rfl
  obtain ⟨es, p, hrun, htask, -⟩ := run_alone hcall
  exact ⟨es, p, hrun, htask⟩

end SampleIndex

end WhatsAppMcp.Controller.Pi.FileIndex
