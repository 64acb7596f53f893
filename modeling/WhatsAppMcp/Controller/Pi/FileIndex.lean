import WhatsAppMcp.Bridge.Media.Paths
import WhatsAppMcp.Controller.Pi.Evidence
import WhatsAppMcp.Lib.Interference

/-!
# The completion index

`createCompletionIndex` of `pi/completion-index.ts`, beside the session files that it
reads, and `appendCompletion` of `pi/session-host.ts`.

A call of the index is a program whose queries are its awaits and its synchronous
accesses to the shared sets: the mapping of a chat, the file-only interval, the
three collections `poisoned`, `pending` and `cache`, and the system calls on the
file.  Between two queries of a call the others move, the model host appends to its
files, and chats are bound.

A session file is only appended to, and no other file takes its name.  How much of
it is on stable storage is part of the world.  A reservation is kept with the task
that made it, which the source does not record.
-/

namespace WhatsAppMcp.Controller.Pi.FileIndex

open Calls

/-! ## Session files -/

/-- A session file. -/
structure SessionFile where
  content : List UInt8
  /-- So many bytes are on stable storage. -/
  stable : Nat
  device : Nat
  inode : Nat
  mtimeNs : Nat
  stable_le : stable ≤ content.length

namespace SessionFile

/-- `stat`. -/
def status (f : SessionFile) : FileStatus :=
  ⟨f.device, f.inode, f.content.length, f.mtimeNs, true, false⟩

/-- Bytes are appended. -/
def append (f : SessionFile) (bytes : List UInt8) (mtimeNs : Nat) : SessionFile :=
  { f with
    content := f.content ++ bytes
    mtimeNs := mtimeNs
    stable_le := by
      have := f.stable_le
      rw [List.length_append]
      omega }

/-- The file is synchronised. -/
def sync (f : SessionFile) : SessionFile :=
  { f with
    stable := f.content.length
    stable_le := le_refl _ }

end SessionFile

/-! ## The index -/

/-- `FileIdentity`. -/
structure FileIdentity where
  device : Nat
  inode : Nat
  size : Nat
  mtimeNs : Nat
  deriving DecidableEq, Repr

/-- What `identity` keeps of a status. -/
def identityOf (status : FileStatus) : FileIdentity :=
  ⟨status.device, status.inode, status.size, status.mtimeNs⟩

/-- An entry of `cache`. -/
structure CacheEntry where
  identity : FileIdentity
  proofs : List StoredProof

/-- `poisoned`, `pending` and `cache`. -/
structure Index where
  poisoned : List String
  /-- The reserved files, with the task that reserved each. -/
  pending : List (String × Nat)
  cache : String → Option CacheEntry

namespace Index

def empty : Index := ⟨[], [], fun _ => none⟩

/-- `pending.has(path)`. -/
def isPending (x : Index) (path : String) : Bool := x.pending.any fun r => r.1 = path

/-- `poison`. -/
def poison (x : Index) (path : String) : Index :=
  ⟨path :: x.poisoned, x.pending.filter fun r => r.1 ≠ path, Function.update x.cache path none⟩

/-- `reserve`, by task `me`; `none` is its throw. -/
def reserve (x : Index) (me : Nat) (path : String) : Option Index :=
  if x.poisoned.contains path || x.isPending path then none
  else some ⟨x.poisoned, (path, me) :: x.pending, Function.update x.cache path none⟩

/-- `publish`; `none` is its throw. -/
def publish (x : Index) (path : String) : Option Index :=
  if x.poisoned.contains path || !x.isPending path then none
  else some { x with pending := x.pending.filter fun r => r.1 ≠ path }

/-- `cache.set`. -/
def store (x : Index) (path : String) (entry : CacheEntry) : Index :=
  { x with cache := Function.update x.cache path (some entry) }

end Index

/-- The session files, the sessions that the chats are bound to, the index, and the task
whose job `exclusive` runs. -/
structure World where
  files : String → Option SessionFile
  bindings : String → Option SessionBinding
  index : Index
  lock : Option Nat

/-- The world with another file at a path. -/
def World.write (s : World) (path : String) (f : SessionFile) : World :=
  { s with files := Function.update s.files path (some f) }

/-! ## Queries -/

/-- What a call awaits, and what it does to the shared sets. -/
inductive Query
  /-- `HGET` of the mapping of a chat. -/
  | row (chat : String)
  | enter
  | leave
  | isPoisoned (path : String)
  | isPending (path : String)
  | cached (path : String)
  | store (path : String) (entry : CacheEntry)
  | poison (path : String)
  | reserve (path : String)
  | publish (path : String)
  /-- The ancestors of the file are directories. -/
  | directories (path : String)
  | opens (path : String)
  /-- `lstat` of the name or `stat` of the descriptor. -/
  | status (path : String)
  | read (path : String) (offset length : Nat)
  /-- The file and its directory are synchronised. -/
  | sync (path : String)
  /-- `current`. -/
  | current
  /-- `appendCustomEntry`. -/
  | append (path : String) (marker : StoredMarker)

/-- What a query comes back with; `none` and `false` are its throw, except for a set
that is asked for a path. -/
abbrev Query.Answer : Query → Type
  | .row _ => Option (Option SessionBinding)
  | .enter | .leave | .store _ _ | .poison _ => Unit
  | .isPoisoned _ | .isPending _ | .reserve _ | .publish _ => Bool
  | .directories _ | .opens _ | .sync _ | .current => Bool
  | .cached _ => Option CacheEntry
  | .status _ => Option FileStatus
  | .read _ _ _ => Option (List UInt8)
  | .append _ _ => Option String

/-- What the queries of task `me` do. -/
inductive Does (me : Nat) : World → (q : Query) → q.Answer → World → Prop
  | row {s : World} {chat : String} : Does me s (.row chat) (some (s.bindings chat)) s
  | rowFails {s : World} {chat : String} : Does me s (.row chat) none s
  | enter {s : World} (hfree : s.lock = none) : Does me s .enter () { s with lock := some me }
  | leave {s : World} : Does me s .leave () { s with lock := none }
  | isPoisoned {s : World} {path : String} :
      Does me s (.isPoisoned path) (s.index.poisoned.contains path) s
  | isPending {s : World} {path : String} : Does me s (.isPending path) (s.index.isPending path) s
  | cached {s : World} {path : String} : Does me s (.cached path) (s.index.cache path) s
  | store {s : World} {path : String} {entry : CacheEntry} :
      Does me s (.store path entry) () { s with index := s.index.store path entry }
  | poison {s : World} {path : String} :
      Does me s (.poison path) () { s with index := s.index.poison path }
  | reserve {s : World} {path : String} {x : Index} (hreserve : s.index.reserve me path = some x) :
      Does me s (.reserve path) true { s with index := x }
  | refuses {s : World} {path : String} (hreserve : s.index.reserve me path = none) :
      Does me s (.reserve path) false s
  | publish {s : World} {path : String} {x : Index} (hpublish : s.index.publish path = some x) :
      Does me s (.publish path) true { s with index := x }
  | retains {s : World} {path : String} (hpublish : s.index.publish path = none) :
      Does me s (.publish path) false s
  | directories {s : World} {path : String} (ok : Bool) : Does me s (.directories path) ok s
  | opens {s : World} {path : String} (ok : Bool) : Does me s (.opens path) ok s
  | status {s : World} {path : String} {f : SessionFile} (hfile : s.files path = some f) :
      Does me s (.status path) (some f.status) s
  | statusFails {s : World} {path : String} : Does me s (.status path) none s
  /-- A read may return less than was asked for. -/
  | read {s : World} {path : String} {offset length : Nat} {f : SessionFile} {bytes : List UInt8}
      (hfile : s.files path = some f) (hbytes : bytes <+: (f.content.drop offset).take length) :
      Does me s (.read path offset length) (some bytes) s
  | readFails {s : World} {path : String} {offset length : Nat} :
      Does me s (.read path offset length) none s
  | sync {s : World} {path : String} {f : SessionFile} (hfile : s.files path = some f) :
      Does me s (.sync path) true (s.write path f.sync)
  | syncFails {s : World} {path : String} : Does me s (.sync path) false s
  /-- The file is synchronised, its directory is not. -/
  | syncsPart {s : World} {path : String} {f : SessionFile} (hfile : s.files path = some f) :
      Does me s (.sync path) false (s.write path f.sync)
  | current {s : World} (ok : Bool) : Does me s .current ok s
  /-- Some bytes are appended, also where the call throws. -/
  | append {s : World} {path : String} {marker : StoredMarker} {f : SessionFile}
      (hfile : s.files path = some f) (bytes : List UInt8) (mtimeNs : Nat) (id : Option String) :
      Does me s (.append path marker) id (s.write path (f.append bytes mtimeNs))
  | appendFails {s : World} {path : String} {marker : StoredMarker} :
      Does me s (.append path marker) none s

/-- What moves the world besides the calls of the index. -/
inductive Moves : World → World → Prop
  | append {s : World} {path : String} {f : SessionFile} (hfile : s.files path = some f)
      (bytes : List UInt8) (mtimeNs : Nat) : Moves s (s.write path (f.append bytes mtimeNs))
  | sync {s : World} {path : String} {f : SessionFile} (hfile : s.files path = some f) :
      Moves s (s.write path f.sync)
  | create {s : World} {path : String} (hnew : s.files path = none) (f : SessionFile) :
      Moves s (s.write path f)
  | bind {s : World} {chat : String} (hnew : s.bindings chat = none) (binding : SessionBinding) :
      Moves s { s with bindings := Function.update s.bindings chat (some binding) }

/-! ## Paths -/

/-- The elements of an absolute path, as `resolve` leaves them. -/
def resolved (path : String) : List String :=
  ((Bridge.Media.elements path).foldl (Bridge.Media.cleanElement true) []).reverse

/-- `relative`, between the elements of two absolute paths. -/
def relative : List String → List String → String
  | a :: from_, b :: to_ =>
    if a = b then relative from_ to_
    else "/".intercalate ((a :: from_).map (fun _ => "..") ++ b :: to_)
  | from_, to_ => "/".intercalate (from_.map (fun _ => "..") ++ to_)

/-- `assertSessionPath`: it does not throw. -/
def sessionPath (root : String) (binding : SessionBinding) : Bool :=
  let rel := relative (resolved root) (resolved binding.sessionFile)
  chatJidSchema binding.canonicalChatId &&
    1 ≤ binding.sessionId.length && binding.sessionId.length ≤ 128 &&
    1 ≤ binding.sessionFile.length && binding.sessionFile.length ≤ 4096 &&
    Bridge.Media.rooted binding.sessionFile && rel ≠ "" && !"..".toList.isPrefixOf rel.toList &&
    !Bridge.Media.rooted rel && ".jsonl".toList.isSuffixOf binding.sessionFile.toList

/-! ## Reading the evidence -/

/-- A program of the index. -/
abbrev Job (α : Type) := Prog Query Query.Answer ErrorClass α

/-- One query. -/
def ask (q : Query) : Job q.Answer := Prog.query q

/-- `throw fail()`. -/
def fail {α : Type} : Job α := throw .sessionFailed

/-- The value, where there is one. -/
def need {α : Type} : Option α → Job α
  | some a => pure a
  | none => fail

/-- The status, or a throw. -/
def status (path : String) : Job FileStatus := ask (.status path) >>= need

/-- The loop over the reads; `none` is `invalid`. -/
def readLines (env : Runtime) (binding : SessionBinding) (remaining offset : Nat)
    (r : LineReader EvidenceScan) : Job (Option (LineReader EvidenceScan)) :=
  if remaining = 0 then pure (some r)
  else do
    let bytes ← ask (.read binding.sessionFile offset (min remaining 65536))
    match bytes with
    | none => pure none
    | some chunk =>
      if chunk = [] then pure none
      else
        match LineReader.feed (fun _ => true) (consume env binding) r chunk with
        | none => pure none
        | some r => readLines env binding (remaining - chunk.length) (offset + chunk.length) r
termination_by remaining
decreasing_by
  have := List.length_pos_of_ne_nil ‹¬ chunk = []›
  omega

/-- One attempt of `readEvidence`; `none` is `continue`. -/
def attempt (env : Runtime) (binding : SessionBinding) : Job (Option (List StoredProof)) := do
  let path := binding.sessionFile
  if !(← ask (.opens path)) then fail
  else
    let before ← status path
    if !before.isFile || before.size = 0 then fail
    else
      let r ← readLines env binding before.size 0 ⟨.start, .empty, []⟩
      let after ← status path
      let named ← status path
      if !before.unchanged after || !after.same named then pure none
      else
        match (r.bind LineReader.finish).bind EvidenceScan.proven with
        | none => fail
        | some proofs =>
          if !(← ask (.sync path)) then do
            ask (.poison path)
            fail
          else
            let durable ← status path
            let durableName ← status path
            if !after.unchanged durable || !durable.same durableName || durableName.isSymbolicLink then
              pure none
            else pure (some proofs)

/-- The attempts of `readEvidence`. -/
def attempts (env : Runtime) (binding : SessionBinding) : Nat → Job (List StoredProof)
  | 0 => fail
  | n + 1 => do
    match ← attempt env binding with
    | some proofs => pure proofs
    | none => attempts env binding n

/-- `readEvidence`. -/
def readEvidence (env : Runtime) (root : String) (binding : SessionBinding) : Job (List StoredProof) := do
  if sessionPath root binding = false then fail
  else if !(← ask (.directories binding.sessionFile)) then fail
  else attempts env binding 8

/-! ## The calls -/

/-- `identity`. -/
def identity (root : String) (binding : SessionBinding) : Job FileIdentity := do
  if sessionPath root binding = false then fail
  else
    let value ← status binding.sessionFile
    if !value.isFile || value.isSymbolicLink then fail else pure (identityOf value)

/-- `evidence`, where the cache does not answer. -/
def scan (env : Runtime) (root : String) (binding : SessionBinding) (before : FileIdentity) :
    Job (List StoredProof) := do
  let proofs ← readEvidence env root binding
  let after ← identity root binding
  if before ≠ after then pure proofs
  else
    ask (.store binding.sessionFile ⟨after, proofs⟩)
    pure proofs

/-- The `try` block of `evidence`. -/
def lookUp (env : Runtime) (root : String) (binding : SessionBinding) : Job (List StoredProof) := do
  let before ← identity root binding
  match ← ask (.cached binding.sessionFile) with
  | none => scan env root binding before
  | some entry =>
    if entry.identity ≠ before then scan env root binding before
    else
      let after ← identity root binding
      if before ≠ after then scan env root binding before else pure entry.proofs

/-- `evidence`. -/
def evidence (env : Runtime) (root : String) (binding : SessionBinding) : Job (List StoredProof) := do
  if ← ask (.isPoisoned binding.sessionFile) then fail
  else
    tryCatch (lookUp env root binding) fun _ => do
      ask (.poison binding.sessionFile)
      fail

/-- How a job ends. -/
def outcome {α : Type} (job : Job α) : Job (Except ErrorClass α) :=
  tryCatch (do
    let a ← job
    pure (Except.ok a)) fun code => pure (Except.error code)

/-- `exclusive`. -/
def exclusive {α : Type} (job : Job α) : Job α := do
  ask .enter
  let result ← outcome job
  ask .leave
  match result with
  | .ok a => pure a
  | .error code => throw code

/-- `readSessionMappings`, chat by chat. -/
def list : List String → Job (List (String × Option SessionBinding))
  | [] => pure []
  | chat :: rest => do
    match ← ask (.row chat) with
    | none => throw .storeUnavailable
    | some binding =>
      if binding.any fun b => b.canonicalChatId ≠ chat then fail
      else
        let rows ← list rest
        pure ((chat, binding) :: rows)

/-- The checks of `snapshot`. -/
def checkedRows (root : String) (canonical : List String) (rows : List (String × Option SessionBinding)) :
    Bool :=
  rows.length = canonical.length && (rows.map Prod.fst).Nodup &&
    rows.all (fun row => canonical.contains row.1) &&
    rows.all (fun row => row.2.all fun b => sessionPath root b && b.canonicalChatId = row.1) &&
    ((rows.filterMap Prod.snd).map SessionBinding.sessionFile).Nodup

/-- `snapshot`. -/
def snapshot (root : String) (canonical : List String) : Job (List (String × Option SessionBinding)) := do
  let rows ← list canonical
  if checkedRows root canonical rows then pure rows else fail

/-- The loop of `rebuild`, with what it has collected. -/
def collect (env : Runtime) (root : String) :
    List (String × Option SessionBinding) → List StoredProof → Job (List StoredProof)
  | [], all => pure all
  | (_, none) :: rows, all => collect env root rows all
  | (_, some binding) :: rows, all => do
    if ← ask (.isPending binding.sessionFile) then fail
    else
      let proofs ← evidence env root binding
      if ((all ++ proofs).map fun p => p.marker.eventId).Nodup then
        collect env root rows (all ++ proofs)
      else fail

/-- `rebuild(snapshot())`, as the queries of the index make it. -/
def rebuild (env : Runtime) (root : String) (canonical : List String) : Job (List StoredProof) := do
  let rows ← snapshot root canonical
  exclusive (collect env root rows [])

/-- `findEvent`. -/
def findEvent (env : Runtime) (root : String) (canonical : List String) (chat id : String) :
    Job (Option StoredProof) := do
  if chat ∉ canonical then fail
  else
    let proofs ← tryCatch (rebuild env root canonical) fun _ => fail
    pure (proofs.find? fun p => p.marker.canonicalChatId = chat && p.marker.eventId = id)

/-- The file-only interval before the marker is appended: its proof, or the reservation. -/
def reserveFor (env : Runtime) (root : String) (binding : SessionBinding) (marker : StoredMarker) :
    Job (Option StoredProof) := do
  let before ← evidence env root binding
  match before.find? fun p => p.marker.eventId = marker.eventId with
  | some found => if found.marker ≠ marker then fail else pure (some found)
  | none => if !(← ask (.reserve binding.sessionFile)) then fail else pure none

/-- `await current()`. -/
def current : Job Unit := do
  if !(← ask .current) then throw .leaseLost

/-- The file-only interval after the marker is appended. -/
def publishAs (env : Runtime) (root : String) (binding : SessionBinding) (marker : StoredMarker)
    (id : String) : Job StoredProof := do
  let after ← evidence env root binding
  let proof ← need (after.find? fun p => p.entryId = id)
  if proof.marker ≠ marker then fail
  else if !(← ask (.publish binding.sessionFile)) then fail
  else pure proof

/-- The append itself: the id of the entry, once it is synchronised. -/
def appendSynced (binding : SessionBinding) (marker : StoredMarker) : Job String := do
  current
  let id ← ask (.append binding.sessionFile marker) >>= need
  current
  if !(← ask (.sync binding.sessionFile)) then fail
  else
    current
    pure id

/-- From the reservation on. -/
def appendReserved (env : Runtime) (root : String) (binding : SessionBinding) (marker : StoredMarker) :
    Job StoredProof := do
  let id ← appendSynced binding marker
  exclusive (publishAs env root binding marker id)

/-- `appendCompletion`, from its first query on. -/
def appendCompletion (env : Runtime) (root : String) (binding : SessionBinding) (marker : StoredMarker) :
    Job StoredProof := do
  current
  match ← exclusive (reserveFor env root binding marker) with
  | some proof => pure proof
  | none =>
    tryCatch (appendReserved env root binding marker) fun _ => do
      ask (.poison binding.sessionFile)
      fail

/-! ## Tasks -/

/-- A call of the index or of the model host. -/
inductive Call
  | findEvent (chat id : String)
  /-- The proofs that `classifyOwn` looks through. -/
  | rebuild
  /-- `exclusive(() => evidence(binding))`. -/
  | evidence (binding : SessionBinding)
  | appendCompletion (binding : SessionBinding) (marker : StoredMarker)
  | invalidate (binding : SessionBinding)

/-- What a call comes to. -/
inductive Value
  | found (proof : Option StoredProof)
  | proofs (all : List StoredProof)
  | completed (proof : StoredProof)
  | invalidated

/-- The program of a call. -/
def program (env : Runtime) (root : String) (canonical : List String) (_ : Nat) : Call → Job Value
  | .findEvent chat id => do
    let proof ← findEvent env root canonical chat id
    pure (.found proof)
  | .rebuild => do
    let all ← rebuild env root canonical
    pure (.proofs all)
  | .evidence binding => do
    let all ← exclusive (evidence env root binding)
    pure (.proofs all)
  | .appendCompletion binding marker => do
    let proof ← appendCompletion env root binding marker
    pure (.completed proof)
  | .invalidate binding => do
    ask (.poison binding.sessionFile)
    pure .invalidated

/-- The controller between two restarts: its calls beside each other. -/
abbrev Process := Team World Call Query Query.Answer ErrorClass Value

/-- Nothing of the index survives a restart. -/
def World.restarted (s : World) : World := { s with index := .empty, lock := none }

/-- A process that started in the world `s` has come to `p`. -/
abbrev Runs (env : Runtime) (root : String) (canonical : List String) (s : World)
    (es : List (Option Nat)) (p : Process) : Prop :=
  Trace.Exec (Team.Step Moves Does (program env root canonical)) ⟨s.restarted, fun _ => none⟩ es p

/-- The machine stops: of each file at least what is on stable storage is left, and the chats
stay bound. -/
structure Crashes (s t : World) : Prop where
  files : ∀ path f, s.files path = some f → ∃ g, t.files path = some g ∧
    f.content.take f.stable <+: g.content ∧ f.stable ≤ g.stable
  bindings : ∀ chat b, s.bindings chat = some b → t.bindings chat = some b

end WhatsAppMcp.Controller.Pi.FileIndex
