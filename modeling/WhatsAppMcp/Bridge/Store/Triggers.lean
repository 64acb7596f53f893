import WhatsAppMcp.Bridge.Store.Runs
import WhatsAppMcp.Lib.Calls
import WhatsAppMcp.Lib.Paging

/-!
# The trigger check

`CheckTriggersMulti` of `bridge/store/messages.go`, as a program of the
statements that it sends: a batch read of the watermarks, the insert of the
missing ones, one query for each chat, and the write of the new watermarks.

The operator `ILIKE` of the server is the parameter `ilike`.  An instant is what
the driver makes of it, a whole number of microseconds.  The columns of the
result that come from `messages_media` are left out.

* `runs_single`: a check of one chat that has a watermark, without filters.
* `checks_complete_iff`: repeated checks return every message once exactly when
  no page ends between two messages of one instant.
-/

namespace WhatsAppMcp.Bridge.Store

open Calls
open Trace (Exec)

/-! ## Tables -/

/-- A row of `watermarks`. -/
structure WatermarkRow where
  jid : String
  lastSeen : Int
  deriving DecidableEq, Repr

/-- The tables that the check uses. -/
structure TriggerTables where
  messages : Table StoredMessage (String × String) (·.key)
  watermarks : Table WatermarkRow String WatermarkRow.jid

/-- `INSERT … ON CONFLICT (jid) DO NOTHING`. -/
def initWatermark (w : Table WatermarkRow String WatermarkRow.jid) (jid : String) (now : Int) :
    Table WatermarkRow String WatermarkRow.jid :=
  (w.insert ⟨jid, now⟩).getD w

/-- `INSERT … ON CONFLICT (jid) DO UPDATE SET last_seen = EXCLUDED.last_seen`. -/
def advanceWatermark (w : Table WatermarkRow String WatermarkRow.jid) (jid : String) (ts : Int) :
    Table WatermarkRow String WatermarkRow.jid :=
  match w.insert ⟨jid, ts⟩ with
  | some inserted => inserted
  | none => w.update (fun r => r.jid = jid) (fun r => { r with lastSeen := ts }) fun _ => rfl

theorem lookup_initWatermark {w : Table WatermarkRow String WatermarkRow.jid} {jid other : String}
    {now : Int} : (initWatermark w jid now).lookup other =
      if other = jid ∧ w.lookup jid = none then some ⟨jid, now⟩ else w.lookup other := by
  unfold initWatermark
  cases hinsert : w.insert ⟨jid, now⟩ with
  | none =>
    obtain ⟨old, hold⟩ := Table.insert_eq_none.mp hinsert
    have hsome : w.lookup jid ≠ none := by
      rw [show w.lookup jid = some old from hold]
      exact Option.some_ne_none old
    simp [hsome]
  | some inserted =>
    have hnone : w.lookup jid = none := Table.lookup_of_insert hinsert
    simp [Table.lookup_insert hinsert, hnone]

theorem lookup_advanceWatermark {w : Table WatermarkRow String WatermarkRow.jid}
    {jid other : String} {ts : Int} : (advanceWatermark w jid ts).lookup other =
      if other = jid then some ⟨jid, ts⟩ else w.lookup other := by
  unfold advanceWatermark
  split
  · next inserted hinsert => exact Table.lookup_insert hinsert
  · next hinsert =>
    obtain ⟨old, hold⟩ := Table.insert_eq_none.mp hinsert
    rw [Table.lookup_update_key fun r => (rfl : _ = decide (r.jid = jid))]
    split
    · next heq =>
      have hjid : old.jid = jid := Table.lookup_key hold
      rw [heq, show w.lookup jid = some old from hold]
      simp [hjid]
    · rfl

/-! ## The statements -/

/-- `TriggerFilters`. -/
structure TriggerFilters where
  mentionJid : String
  senderJids : List String

/-- What a check fails with; each is the wrapping of an error of the driver. -/
inductive TriggerError where
  | batchReadWatermarks
  | scanWatermark
  | iterateWatermarks
  | initWatermarks
  | queryTriggers (jid : String)
  | scanTriggers (jid : String)
  | advanceWatermarks
  deriving DecidableEq

/-- A statement of a check. -/
inductive TriggerQuery where
  | readWatermarks (jids : List String)
  | now
  | initWatermarks (missing : List String) (now : Int)
  | queryTriggers (jid : String) (wm : Int) (filters : TriggerFilters) (limit : Nat)
  | advanceWatermarks (advances : List (String × Int))

/-- What a statement comes back with. -/
abbrev TriggerQuery.Answer : TriggerQuery → Type
  | .readWatermarks _ => Except TriggerError (List WatermarkRow)
  | .now => Int
  | .initWatermarks _ _ | .advanceWatermarks _ => Except TriggerError Unit
  | .queryTriggers _ _ _ _ => Except TriggerError (List StoredMessage)

/-- The `WHERE` clause of the query of one chat. -/
def triggers (ilike : String → String → Bool) (jid : String) (wm : Int) (filters : TriggerFilters)
    (m : StoredMessage) : Bool :=
  m.chatJid = jid && wm < m.timestamp && !m.isFromMe &&
    (filters.senderJids.isEmpty || filters.senderJids.contains m.sender) &&
    (filters.mentionJid = "" || ilike m.content ("%" ++ filters.mentionJid ++ "%"))

/-- What the server does with a statement.  One that fails leaves the tables as they
are, or its commit has come through all the same. -/
inductive TriggerAnswers (ilike : String → String → Bool) (s : TriggerTables) :
    (q : TriggerQuery) → q.Answer → TriggerTables → Prop
  | readWatermarks {jids : List String} :
      TriggerAnswers ilike s (.readWatermarks jids)
        (.ok (s.watermarks.rows.filter fun r => r.jid ∈ jids)) s
  | now {t : Int} : TriggerAnswers ilike s .now t s
  | initWatermarks {missing : List String} {now : Int} {result : Except TriggerError Unit} :
      TriggerAnswers ilike s (.initWatermarks missing now) result
        { s with watermarks := missing.foldl (fun w jid => initWatermark w jid now) s.watermarks }
  | queryTriggers {jid : String} {wm : Int} {filters : TriggerFilters} {limit : Nat}
      {rows : List StoredMessage}
      (hrows : s.messages.Selects (triggers ilike jid wm filters) (·.timestamp) limit rows) :
      TriggerAnswers ilike s (.queryTriggers jid wm filters limit) (.ok rows) s
  | advanceWatermarks {advances : List (String × Int)} {result : Except TriggerError Unit} :
      TriggerAnswers ilike s (.advanceWatermarks advances) result
        { s with watermarks := advances.foldl (fun w a => advanceWatermark w a.1 a.2) s.watermarks }
  | readFails {jids : List String} {e : TriggerError} :
      TriggerAnswers ilike s (.readWatermarks jids) (.error e) s
  | initFails {missing : List String} {now : Int} {e : TriggerError} :
      TriggerAnswers ilike s (.initWatermarks missing now) (.error e) s
  | queryFails {jid : String} {wm : Int} {filters : TriggerFilters} {limit : Nat}
      {e : TriggerError} : TriggerAnswers ilike s (.queryTriggers jid wm filters limit) (.error e) s
  | advanceFails {advances : List (String × Int)} {e : TriggerError} :
      TriggerAnswers ilike s (.advanceWatermarks advances) (.error e) s

/-! ## The check -/

/-- `TriggerGroupResult`. -/
structure TriggerGroupResult where
  count : Nat
  messages : List StoredMessage

/-- `TriggerCheckResult`. -/
structure TriggerCheckResult where
  total : Nat
  groups : List (String × TriggerGroupResult)

/-- The map with a key set. -/
def put {β : Type} (map : List (String × β)) (key : String) (value : β) : List (String × β) :=
  (key, value) :: map.filter fun entry => entry.1 ≠ key

/-- A check. -/
abbrev Check (α : Type) := Prog TriggerQuery TriggerQuery.Answer TriggerError α

/-- One statement. -/
def ask (q : TriggerQuery) : Check q.Answer := Prog.query q

/-- An error of a statement ends the check. -/
def orThrow {α : Type} : Except TriggerError α → Check α
  | .ok a => pure a
  | .error e => throw e

/-- `watermarks[jid]` after the second step: the value that was read, or now. -/
def watermarkOf (read : List WatermarkRow) (now : Int) (jid : String) : Int :=
  ((read.find? fun r => r.jid = jid).map WatermarkRow.lastSeen).getD now

/-- The chats without a watermark, in their order. -/
def missing (read : List WatermarkRow) (jids : List String) : List String :=
  jids.foldl (fun found jid =>
    if jid ∈ read.map WatermarkRow.jid ∨ jid ∈ found then found else found ++ [jid]) []

/-- What the queries have found: the result, and the new watermarks. -/
abbrev Found := TriggerCheckResult × List (String × Int)

/-- The third step: one query for each chat. -/
def queryEach (wm : String → Int) (filters : TriggerFilters) (limit : Nat) :
    List String → Found → Check Found
  | [], found => pure found
  | jid :: rest, (result, advances) => do
    let msgs ← orThrow (← ask (.queryTriggers jid (wm jid) filters limit))
    match msgs.getLast? with
    | none => queryEach wm filters limit rest (result, advances)
    | some last =>
      queryEach wm filters limit rest
        (⟨result.total + msgs.length, put result.groups jid ⟨msgs.length, msgs⟩⟩,
          put advances jid last.timestamp)

/-- The second step, without an effect in a dry run. -/
def initMissing (dryRun : Bool) (missing : List String) (now : Int) : Check Unit := do
  if dryRun = false ∧ missing ≠ [] then
    orThrow (← ask (.initWatermarks missing now))

/-- The fourth step, without an effect in a dry run. -/
def writeAdvances (dryRun : Bool) (advances : List (String × Int)) : Check Unit := do
  if dryRun = false ∧ advances ≠ [] then
    orThrow (← ask (.advanceWatermarks advances))

/-- `CheckTriggersMulti`. -/
def checkTriggersMulti (jids : List String) (filters : TriggerFilters) (limit : Int)
    (dryRun : Bool) : Check TriggerCheckResult := do
  if jids = [] then
    return ⟨0, []⟩
  let limit := if limit ≤ 0 then 100 else limit.toNat
  let read ← orThrow (← ask (.readWatermarks jids))
  let now ← ask .now
  initMissing dryRun (missing read jids) now
  let (result, advances) ← queryEach (watermarkOf read now) filters limit jids (⟨0, []⟩, [])
  writeAdvances dryRun advances
  return result

/-! ## A check of one chat -/

/-- No filters. -/
def noFilters : TriggerFilters := ⟨"", []⟩

/-- The inbound messages of the chat above its watermark. -/
def TriggerTables.unseen (s : TriggerTables) (jid : String) (wm : Int) : List StoredMessage :=
  s.messages.rows.filter fun m => m.chatJid = jid && wm < m.timestamp && !m.isFromMe

/-- The messages of a chat in a result. -/
def TriggerCheckResult.messagesOf (r : TriggerCheckResult) (jid : String) : List StoredMessage :=
  ((r.groups.lookup jid).map TriggerGroupResult.messages).getD []

section Runs

variable {ilike : String → String → Bool} {α : Type} {s t : TriggerTables} {r : α}

theorem runs_orThrow {β : Type} {answer : Except TriggerError β} {f : β → Check α} :
    (orThrow answer >>= f).Runs (TriggerAnswers ilike) s (.ok r) t ↔
      ∃ b, answer = .ok b ∧ (f b).Runs (TriggerAnswers ilike) s (.ok r) t := by
  cases answer with
  | ok b =>
    constructor
    · exact fun h => ⟨b, rfl, h⟩
    · intro h
      obtain ⟨b', heq, h⟩ := h
      cases heq
      exact h
  | error e =>
    constructor
    · intro h
      cases h.1
    · intro h
      obtain ⟨b, heq, -⟩ := h
      cases heq

theorem runs_readWatermarks {jids : List String} {f : List WatermarkRow → Check α} :
    (ask (.readWatermarks jids) >>= fun answer => orThrow answer >>= f).Runs
        (TriggerAnswers ilike) s (.ok r) t ↔
      (f (s.watermarks.rows.filter fun r => r.jid ∈ jids)).Runs (TriggerAnswers ilike) s (.ok r) t := by
  constructor
  · intro h
    obtain ⟨answer, u, hanswer, hrest⟩ := h
    obtain ⟨read, rfl, hrest⟩ := runs_orThrow.mp hrest
    cases hanswer
    exact hrest
  · exact fun h => ⟨_, s, .readWatermarks, runs_orThrow.mpr ⟨_, rfl, h⟩⟩

theorem runs_now {f : Int → Check α} :
    (ask .now >>= f).Runs (TriggerAnswers ilike) s (.ok r) t ↔
      ∃ now, (f now).Runs (TriggerAnswers ilike) s (.ok r) t := by
  constructor
  · intro h
    obtain ⟨now, u, hanswer, hrest⟩ := h
    cases hanswer
    exact ⟨now, hrest⟩
  · intro h
    obtain ⟨now, h⟩ := h
    exact ⟨now, s, .now, h⟩

theorem runs_queryTriggers {jid : String} {wm : Int} {filters : TriggerFilters} {limit : Nat}
    {f : List StoredMessage → Check α} :
    (ask (.queryTriggers jid wm filters limit) >>= fun answer => orThrow answer >>= f).Runs
        (TriggerAnswers ilike) s (.ok r) t ↔
      ∃ rows, s.messages.Selects (triggers ilike jid wm filters) (·.timestamp) limit rows ∧
        (f rows).Runs (TriggerAnswers ilike) s (.ok r) t := by
  constructor
  · intro h
    obtain ⟨answer, u, hanswer, hrest⟩ := h
    obtain ⟨rows, rfl, hrest⟩ := runs_orThrow.mp hrest
    cases hanswer with
    | queryTriggers hrows => exact ⟨rows, hrows, hrest⟩
  · intro h
    obtain ⟨rows, hrows, h⟩ := h
    exact ⟨.ok rows, s, .queryTriggers hrows, runs_orThrow.mpr ⟨rows, rfl, h⟩⟩

/-- The tables with new watermarks. -/
def TriggerTables.written (s : TriggerTables) (advances : List (String × Int)) : TriggerTables :=
  { s with watermarks := advances.foldl (fun w a => advanceWatermark w a.1 a.2) s.watermarks }

theorem runs_writeAdvances {advances : List (String × Int)} {u : Unit} :
    (writeAdvances false advances).Runs (TriggerAnswers ilike) s (.ok u) t ↔
      t = s.written advances := by
  unfold writeAdvances
  by_cases hnil : advances = []
  · subst hnil
    simp [TriggerTables.written]
  · simp only [hnil, ne_eq, not_false_eq_true, and_self, if_true]
    constructor
    · intro h
      obtain ⟨answer, u, hanswer, hrest⟩ := h
      cases hanswer with
      | advanceWatermarks =>
        cases answer with
        | ok _ => exact hrest.2
        | error e => cases hrest.1
      | advanceFails => cases hrest.1
    · intro h
      subst h
      exact ⟨.ok (), _, .advanceWatermarks, rfl, rfl⟩

/-- The result of a check that has returned `page` for one chat. -/
def resultOf (jid : String) (page : List StoredMessage) : TriggerCheckResult :=
  if page = [] then ⟨0, []⟩ else ⟨page.length, [(jid, ⟨page.length, page⟩)]⟩

/-- The new watermark after a page, where it has messages. -/
def advanceOf (jid : String) (page : List StoredMessage) : List (String × Int) :=
  page.getLast?.toList.map fun last => (jid, last.timestamp)

theorem messagesOf_resultOf (jid : String) (page : List StoredMessage) :
    (resultOf jid page).messagesOf jid = page := by
  unfold resultOf
  split
  · next hempty => simp [TriggerCheckResult.messagesOf, hempty]
  · simp [TriggerCheckResult.messagesOf]

theorem selects_unseen {jid : String} {wm : Int} {limit : Nat} {page : List StoredMessage} :
    s.messages.Selects (triggers ilike jid wm noFilters) (·.timestamp) limit page ↔
      Paging.Page (fun m : StoredMessage => m.timestamp) limit (s.unseen jid wm) page := by
  have hsel : triggers ilike jid wm noFilters =
      fun m : StoredMessage => m.chatJid = jid && wm < m.timestamp && !m.isFromMe := by
    funext m
    simp [triggers, noFilters]
  unfold Table.Selects Paging.Page TriggerTables.unseen
  rw [hsel]

theorem runs_queryOne {jid : String} {wm : String → Int} {limit : Nat} {found : Found} :
    (queryEach wm noFilters limit [jid] (⟨0, []⟩, [])).Runs (TriggerAnswers ilike) s (.ok found) t ↔
      ∃ page, Paging.Page (fun m : StoredMessage => m.timestamp) limit (s.unseen jid (wm jid)) page ∧
        found = (resultOf jid page, advanceOf jid page) ∧ t = s := by
  have hfound : ∀ page : List StoredMessage,
      (match page.getLast? with
        | none => queryEach wm noFilters limit [] (⟨0, []⟩, [])
        | some last => queryEach wm noFilters limit []
            (⟨0 + page.length, put [] jid ⟨page.length, page⟩⟩, put [] jid last.timestamp)).Runs
          (TriggerAnswers ilike) s (.ok found) t ↔
        found = (resultOf jid page, advanceOf jid page) ∧ t = s := by
    intro page
    cases hlast : page.getLast? with
    | none =>
      rw [List.getLast?_eq_none_iff] at hlast
      simp [queryEach, resultOf, advanceOf, hlast]
    | some last =>
      have hsome : page ≠ [] := by
        intro hnil
        simp [hnil] at hlast
      simp [queryEach, resultOf, advanceOf, put, hsome, hlast]
  unfold queryEach
  rw [runs_queryTriggers]
  simp only [selects_unseen, hfound]

/-- A check of one chat that has a watermark. -/
theorem runs_single {jid : String} {limit : Int} {row : WatermarkRow} {result : TriggerCheckResult}
    (hlimit : 1 ≤ limit) (hrow : s.watermarks.lookup jid = some row) :
    (checkTriggersMulti [jid] noFilters limit false).Runs (TriggerAnswers ilike) s (.ok result) t ↔
      ∃ page, Paging.Page (fun m : StoredMessage => m.timestamp) limit.toNat
          (s.unseen jid row.lastSeen) page ∧
        result = resultOf jid page ∧ t = s.written (advanceOf jid page) := by
  have hpositive : ¬ limit ≤ 0 := by omega
  have hjid : row.jid = jid := Table.lookup_key hrow
  -- the row was read, so no watermark is missing
  have hread : s.watermarks.rows.filter (fun r => r.jid ∈ [jid]) = [row] := by
    simpa using Table.filter_key hrow
  have hmissing : missing [row] [jid] = [] := by simp [missing, hjid]
  have hwm : ∀ now, watermarkOf [row] now jid = row.lastSeen := fun now => by
    simp [watermarkOf, hjid]
  unfold checkTriggersMulti
  simp only [reduceCtorEq, if_false, hpositive]
  rw [runs_readWatermarks, hread, runs_now]
  simp only [hmissing, initMissing, ne_eq, not_true_eq_false, and_false, if_false,
    Prog.runs_bind_ok, runs_queryOne, hwm, runs_writeAdvances, Prog.runs_pure]
  constructor
  · intro h
    obtain ⟨now, _, _, ⟨-, rfl⟩, found, u, ⟨page, hpage, rfl, rfl⟩, _, _, rfl, hresult, rfl⟩ := h
    exact ⟨page, hpage, Except.ok.inj hresult, rfl⟩
  · intro h
    obtain ⟨page, hpage, rfl, rfl⟩ := h
    exact ⟨0, (), s, ⟨trivial, rfl⟩, _, s, ⟨page, hpage, rfl, rfl⟩, (), _, rfl, rfl, rfl⟩

end Runs

/-! ## Repeated checks -/

/-- A check of one chat, without filters, and the messages that it returns. -/
def Checks (ilike : String → String → Bool) (jid : String) (limit : Int) (s : TriggerTables)
    (page : List StoredMessage) (t : TriggerTables) : Prop :=
  ∃ result, (checkTriggersMulti [jid] noFilters limit false).Runs (TriggerAnswers ilike) s
    (.ok result) t ∧ page = result.messagesOf jid

/-- The inbound messages above the watermark that the chat has. -/
def TriggerTables.pending (s : TriggerTables) (jid : String) : List StoredMessage :=
  match s.watermarks.lookup jid with
  | none => []
  | some row => s.unseen jid row.lastSeen

/-- Repeated checks return every pending message once, and then none. -/
def ChecksComplete (ilike : String → String → Bool) (jid : String) (limit : Int)
    (s : TriggerTables) : Prop :=
  ∃ n, ∀ pages t, Exec (Checks ilike jid limit) s pages t →
    (n ≤ pages.length → pages.flatten.Perm (s.pending jid)) ∧ ∀ page ∈ pages.drop n, page = []

/-- The instant of a message. -/
abbrev instant (m : StoredMessage) : Int := m.timestamp

section Checks

variable {ilike : String → String → Bool} {jid : String} {limit : Int} {s t : TriggerTables}
  {row : WatermarkRow} {page : List StoredMessage}

theorem checks_iff (hlimit : 1 ≤ limit) (hrow : s.watermarks.lookup jid = some row) :
    Checks ilike jid limit s page t ↔ Paging.Page instant limit.toNat (s.pending jid) page ∧
      t = s.written (advanceOf jid page) := by
  unfold Checks TriggerTables.pending
  simp only [runs_single hlimit hrow, hrow]
  constructor
  · intro h
    obtain ⟨result, ⟨page', hpage, rfl, rfl⟩, rfl⟩ := h
    rw [messagesOf_resultOf]
    exact ⟨hpage, rfl⟩
  · intro h
    exact ⟨resultOf jid page, ⟨page, h.1, rfl, h.2⟩, (messagesOf_resultOf jid page).symm⟩

/-- After a check the messages above the last one are pending. -/
theorem pending_written (hrow : s.watermarks.lookup jid = some row)
    (hpage : Paging.Page instant limit.toNat (s.pending jid) page) :
    (∃ row', (s.written (advanceOf jid page)).watermarks.lookup jid = some row') ∧
      (s.written (advanceOf jid page)).pending jid = Paging.after instant (s.pending jid) page := by
  unfold advanceOf Paging.after
  cases hlast : page.getLast? with
  | none => exact ⟨⟨row, hrow⟩, rfl⟩
  | some last =>
    have hlookup : (s.written [(jid, last.timestamp)]).watermarks.lookup jid =
        some ⟨jid, last.timestamp⟩ := by
      show (advanceWatermark s.watermarks jid last.timestamp).lookup jid = _
      rw [lookup_advanceWatermark, if_pos rfl]
    refine ⟨⟨_, hlookup⟩, ?_⟩
    have habove : row.lastSeen < last.timestamp := by
      obtain ⟨sorted, hperm, -, rfl⟩ := hpage
      have hmem := hperm.subset (List.mem_of_mem_take (List.mem_of_getLast? hlast))
      simp only [TriggerTables.pending, hrow, TriggerTables.unseen, List.mem_filter,
        Bool.and_eq_true, decide_eq_true_eq] at hmem
      omega
    show (match (s.written [(jid, last.timestamp)]).watermarks.lookup jid with
      | none => []
      | some row => (s.written [(jid, last.timestamp)]).unseen jid row.lastSeen) = _
    rw [hlookup]
    simp only [TriggerTables.pending, hrow, TriggerTables.unseen, TriggerTables.written,
      List.filter_filter]
    refine List.filter_congr fun m _ => ?_
    by_cases hm : last.timestamp < m.timestamp
    · have : row.lastSeen < m.timestamp := by omega
      simp [hm, this]
    · simp [hm]

/-- The pages of repeated checks are those of the pending messages. -/
theorem checksComplete_iff_readsAll (hlimit : 1 ≤ limit)
    (hrow : s.watermarks.lookup jid = some row) :
    ChecksComplete ilike jid limit s ↔ Paging.ReadsAll instant limit.toNat (s.pending jid) := by
  have hforward : ∀ {pages u}, Exec (Checks ilike jid limit) s pages u →
      ∃ rest, Exec (Paging.Reads instant limit.toNat) (s.pending jid) pages rest ∧
        (∃ row, u.watermarks.lookup jid = some row) ∧ rest = u.pending jid := by
    intro pages u run
    refine run.simulate (R := fun s rows =>
      (∃ row, s.watermarks.lookup jid = some row) ∧ rows = s.pending jid)
      ⟨⟨row, hrow⟩, rfl⟩ fun s page u rows hR hstep => ?_
    obtain ⟨⟨row, hrow⟩, rfl⟩ := hR
    obtain ⟨hpage, rfl⟩ := (checks_iff hlimit hrow).mp hstep
    obtain ⟨hrow', hpending⟩ := pending_written hrow hpage
    exact ⟨_, ⟨hpage, rfl⟩, hrow', hpending.symm⟩
  have hback : ∀ {pages rest}, Exec (Paging.Reads instant limit.toNat) (s.pending jid) pages rest →
      ∃ u, Exec (Checks ilike jid limit) s pages u ∧
        (∃ row, u.watermarks.lookup jid = some row) ∧ rest = u.pending jid := by
    intro pages rest run
    refine run.simulate (R := fun rows (s : TriggerTables) =>
      (∃ row, s.watermarks.lookup jid = some row) ∧ rows = s.pending jid)
      ⟨⟨row, hrow⟩, rfl⟩ fun rows page rest s hR hstep => ?_
    obtain ⟨⟨row, hrow⟩, rfl⟩ := hR
    obtain ⟨hpage, rfl⟩ := hstep
    obtain ⟨hrow', hpending⟩ := pending_written hrow hpage
    exact ⟨_, (checks_iff hlimit hrow).mpr ⟨hpage, rfl⟩, hrow', hpending.symm⟩
  constructor
  · intro h
    obtain ⟨n, hall⟩ := h
    refine ⟨n, fun pages rest run => ?_⟩
    obtain ⟨u, hu, -⟩ := hback run
    exact hall pages u hu
  · intro h
    obtain ⟨n, hall⟩ := h
    refine ⟨n, fun pages u run => ?_⟩
    obtain ⟨rest, hrest, -⟩ := hforward run
    exact hall pages rest hrest

/-- Repeated checks are complete exactly when no page ends between two messages of one
instant. -/
theorem checks_complete_iff (hlimit : 1 ≤ limit) (hrow : s.watermarks.lookup jid = some row) :
    ChecksComplete ilike jid limit s ↔ Paging.Aligned instant limit.toNat (s.pending jid) :=
  (checksComplete_iff_readsAll hlimit hrow).trans (Paging.readsAll_iff (by omega))

end Checks

/-! ## Sample pages -/

/-- An inbound message at an instant. -/
def sampleInbound (id : String) (timestamp : Int) : StoredMessage :=
  { sampleMessage with id := id, timestamp := timestamp, isFromMe := false }.stored false

/-- Two messages of a chat that has a watermark. -/
def sampleTriggers (first second : Int) : TriggerTables where
  messages := ⟨[sampleInbound "M1" first, sampleInbound "M2" second], by
    show [("M1", "15@lid"), ("M2", "15@lid")].Nodup
    decide⟩
  watermarks := ⟨[⟨"15@lid", 0⟩], by decide⟩

theorem sampleTriggers_watermark (first second : Int) :
    (sampleTriggers first second).watermarks.lookup "15@lid" = some ⟨"15@lid", 0⟩ := by
  rfl

/-- Two messages of different instants. -/
theorem checks_complete_iff_of_sampleTriggers :
    ChecksComplete (fun _ _ => false) "15@lid" 1 (sampleTriggers 1000 2000) :=
  (checks_complete_iff (by decide) (sampleTriggers_watermark 1000 2000)).mpr
    (Paging.aligned_of_nodup (by decide))

/-- A page of one message ends between two messages of one instant. -/
theorem checks_lose_of_sampleTriggers :
    ¬ ∀ ilike jid limit s row, 1 ≤ limit → s.watermarks.lookup jid = some row →
      ChecksComplete ilike jid limit s := by
  intro hall
  have hrow := sampleTriggers_watermark 1000 1000
  have hcomplete := hall (fun _ _ => false) "15@lid" 1 (sampleTriggers 1000 1000) ⟨"15@lid", 0⟩
    (by decide) hrow
  rw [checksComplete_iff_readsAll (by decide) hrow] at hcomplete
  have hclean := (Paging.readsAll_iff (by decide)).mp hcomplete 0
  revert hclean
  unfold Paging.Clean
  decide

end WhatsAppMcp.Bridge.Store
