import WhatsAppMcp.Bridge.Store.Triggers
import WhatsAppMcp.Lib.Threads

/-!
# Concurrent trigger checks

Any number of trigger checks beside each other, statement by statement, while
messages are stored.

The last step of a check writes its watermark over whatever stands there, so a
slow check can set a newer watermark back.  `Timely` is a step before which no
other check has raised the watermark that the writer has read.

* `checkTriggersMulti_obeys`: where the messages of a result come from.
* `Checking.Facts` is what the tables say about the answers so far, and
  `facts_step` is the step lemma.
* `watermarks_monotone`: in a run of timely steps the watermarks only rise, and
  no message is returned twice.
-/

namespace WhatsAppMcp.Bridge.Store

open Calls
open Trace (Exec)

/-! ## Checks beside each other -/

/-- The arguments of a check. -/
structure CheckArgs where
  jids : List String
  filters : TriggerFilters
  limit : Int
  dryRun : Bool

/-- The program of a check. -/
def CheckArgs.program (args : CheckArgs) : Check TriggerCheckResult :=
  checkTriggersMulti args.jids args.filters args.limit args.dryRun

/-- The answers of a check so far. -/
abbrev CheckPast := List (Said TriggerQuery.Answer)

/-- The tables and the checks. -/
abbrev Checking :=
  Pool TriggerTables CheckArgs TriggerQuery TriggerQuery.Answer TriggerError TriggerCheckResult

/-- A message is stored, which may be stored already. -/
def StoresMessage (s t : TriggerTables) : Prop :=
  t.watermarks = s.watermarks ∧ ∃ m : StoredMessage, t.messages.lookup m.key = some m ∧
    ∀ key, key ≠ m.key → t.messages.lookup key = s.messages.lookup key

/-- A message is stored, a check starts, or a statement of a check is answered. -/
abbrev Checking.Step (ilike : String → String → Bool) :
    Checking → Option (Nat × Said TriggerQuery.Answer) → Checking → Prop :=
  Pool.Step StoresMessage (TriggerAnswers ilike) (fun _ => True) CheckArgs.program

/-- Where a check writes its watermarks, none of them has been raised above the one
that the check has queried with, and a message that is stored again does not move to a
later instant. -/
structure Checking.Timely (p : Checking) (d : Option (Nat × Said TriggerQuery.Answer))
    (q : Checking) : Prop where
  unraised : ∀ i turn advances args th, d = some (i, turn) →
    turn.query = .advanceWatermarks advances → p.threads i = some (args, th) →
    ∀ a ∈ advances, ∀ wm filters limit answer,
      said (.queryTriggers a.1 wm filters limit) answer ∈ th.past →
      ∀ row, p.world.watermarks.lookup a.1 = some row → row.lastSeen ≤ wm
  stores : ∀ key old new, p.world.messages.lookup key = some old →
    q.world.messages.lookup key = some new → new.timestamp ≤ old.timestamp

/-! ## What a check asks and returns -/

/-- The instant is that of the last message which a query of the chat has returned. -/
def Newest (past : CheckPast) (a : String × Int) : Prop :=
  ∃ wm filters limit msgs last, said (.queryTriggers a.1 wm filters limit) (.ok msgs) ∈ past ∧
    msgs.getLast? = some last ∧ last.timestamp = a.2

/-- The new watermarks are those of different chats, and each is an instant that a query
has returned. -/
def AllowedCheck (past : CheckPast) : TriggerQuery → Prop
  | .advanceWatermarks advances =>
    (advances.map Prod.fst).Nodup ∧ ∀ a ∈ advances, Newest past a
  | _ => True

/-- The query of a chat and its messages, with the watermark that was read. -/
def Queried (args : CheckArgs) (past : CheckPast) (jid : String) (msgs : List StoredMessage) : Prop :=
  ∃ read now filters limit, said (.readWatermarks args.jids) (.ok read) ∈ past ∧ jid ∈ args.jids ∧
    said (.queryTriggers jid (watermarkOf read now jid) filters limit) (.ok msgs) ∈ past

/-- The messages of a chat were returned by its query, and its new watermark is the
instant of the last one. -/
def Collected (args : CheckArgs) (past : CheckPast) (found : Found) : Prop :=
  ((found.2.map Prod.fst).Nodup ∧ ∀ a ∈ found.2, Newest past a) ∧
    ∀ jid group, (jid, group) ∈ found.1.groups → Queried args past jid group.messages ∧
      ∃ last, group.messages.getLast? = some last ∧ (jid, last.timestamp) ∈ found.2

/-- The messages of a chat were returned by its query, and a check that is no dry run
has written the instant of the last one. -/
def Returned (args : CheckArgs) (past : CheckPast) (result : TriggerCheckResult) : Prop :=
  ∀ jid group, (jid, group) ∈ result.groups → Queried args past jid group.messages ∧
    (args.dryRun = false → ∃ last advances, group.messages.getLast? = some last ∧
      (jid, last.timestamp) ∈ advances ∧ said (.advanceWatermarks advances) (.ok ()) ∈ past)

section Obeys

variable {args : CheckArgs} {past past' : CheckPast}

theorem Queried.mono {jid : String} {msgs : List StoredMessage} (h : Queried args past jid msgs)
    (hsub : past ⊆ past') : Queried args past' jid msgs := by
  obtain ⟨read, now, filters, limit, hread, hjid, hquery⟩ := h
  exact ⟨read, now, filters, limit, hsub hread, hjid, hsub hquery⟩

theorem Newest.mono {a : String × Int} (h : Newest past a) (hsub : past ⊆ past') :
    Newest past' a := by
  obtain ⟨wm, filters, limit, msgs, last, hquery, hlast⟩ := h
  exact ⟨wm, filters, limit, msgs, last, hsub hquery, hlast⟩

theorem Collected.mono {found : Found} (h : Collected args past found) (hsub : past ⊆ past') :
    Collected args past' found :=
  ⟨⟨h.1.1, fun a ha => (h.1.2 a ha).mono hsub⟩,
    fun jid group hgroup => ⟨(h.2 jid group hgroup).1.mono hsub, (h.2 jid group hgroup).2⟩⟩

/-- A statement and what follows it. -/
theorem obeys_statement {α : Type} {q : TriggerQuery} (hq : AllowedCheck past q)
    {f : q.Answer → Check α} {post : CheckPast → α → Prop}
    (hf : ∀ answer, (f answer).Obeys AllowedCheck (past ++ [said q answer]) post) :
    (ask q >>= f).Obeys AllowedCheck past post :=
  ⟨hq, fun answer _ _ => hf answer⟩

theorem obeys_orThrow {α β : Type} {answer : Except TriggerError β} {f : β → Check α}
    {post : CheckPast → α → Prop}
    (hf : ∀ b, answer = .ok b → (f b).Obeys AllowedCheck past post) :
    (orThrow answer >>= f).Obeys AllowedCheck past post := by
  cases answer with
  | ok b => exact hf b rfl
  | error e => exact Prog.obeys_throw

theorem mem_put {β : Type} {map : List (String × β)} {key other : String} {value v : β} :
    (other, v) ∈ put map key value ↔ other = key ∧ v = value ∨ other ≠ key ∧ (other, v) ∈ map := by
  simp only [put, List.mem_cons, Prod.mk.injEq, List.mem_filter, decide_eq_true_eq]
  tauto

theorem put_nodup {β : Type} {map : List (String × β)} {key : String} {value : β}
    (h : (map.map Prod.fst).Nodup) : ((put map key value).map Prod.fst).Nodup := by
  rw [put, List.map_cons, List.nodup_cons]
  refine ⟨fun hmem => ?_, h.sublist (List.filter_sublist.map _)⟩
  obtain ⟨entry, hentry, hkey⟩ := List.mem_map.mp hmem
  have hne := (List.mem_filter.mp hentry).2
  simp only [decide_eq_true_eq] at hne
  exact hne hkey

/-- The third step collects what its queries return. -/
theorem obeys_queryEach {read : List WatermarkRow} {now : Int} {filters : TriggerFilters}
    {limit : Nat} (hread : said (.readWatermarks args.jids) (.ok read) ∈ past) {jids : List String}
    (hjids : ∀ jid ∈ jids, jid ∈ args.jids) {found : Found} (hfound : Collected args past found) :
    (queryEach (watermarkOf read now) filters limit jids found).Obeys AllowedCheck past
      (Collected args) := by
  induction jids generalizing past found with
  | nil => exact Prog.obeys_pure hfound
  | cons jid rest ih =>
    have hrest : ∀ jid ∈ rest, jid ∈ args.jids := fun jid hjid => hjids jid (List.mem_cons_of_mem _ hjid)
    refine obeys_statement (by trivial) fun answer => obeys_orThrow fun msgs hmsgs => ?_
    subst hmsgs
    have hsub : past ⊆ past ++ [said (.queryTriggers jid (watermarkOf read now jid) filters limit)
        (.ok msgs)] := List.subset_append_left ..
    split
    · exact ih (hsub hread) hrest (hfound.mono hsub)
    · next last hlast =>
      have hquery : said (.queryTriggers jid (watermarkOf read now jid) filters limit) (.ok msgs) ∈
          past ++ [said (.queryTriggers jid (watermarkOf read now jid) filters limit) (.ok msgs)] :=
        List.mem_append_right _ (List.mem_singleton_self _)
      refine ih (hsub hread) hrest ⟨⟨put_nodup hfound.1.1, fun a ha => ?_⟩, fun other group hgroup => ?_⟩
      · obtain ⟨other, ts⟩ := a
        rcases mem_put.mp ha with ⟨rfl, rfl⟩ | ⟨-, hold⟩
        · exact ⟨_, _, _, _, last, hquery, hlast, rfl⟩
        · exact (hfound.1.2 _ hold).mono hsub
      rcases mem_put.mp hgroup with ⟨rfl, rfl⟩ | ⟨hne, hold⟩
      · exact ⟨⟨read, now, filters, limit, hsub hread, hjids _ List.mem_cons_self, hquery⟩, last,
          hlast, mem_put.mpr (.inl ⟨rfl, rfl⟩)⟩
      · obtain ⟨hqueried, last', hlast', hadvance⟩ := (hfound.mono hsub).2 other group hold
        exact ⟨hqueried, last', hlast', mem_put.mpr (.inr ⟨hne, hadvance⟩)⟩

theorem obeys_initMissing {dryRun : Bool} {missing : List String} {now : Int} :
    (initMissing dryRun missing now).Obeys AllowedCheck past fun _ _ => True := by
  unfold initMissing
  split
  · refine obeys_statement (by trivial) fun answer => ?_
    cases answer with
    | ok _ => exact Prog.obeys_pure trivial
    | error e => exact Prog.obeys_throw
  · exact Prog.obeys_pure trivial

/-- The fourth step, where it writes. -/
theorem obeys_writeAdvances {dryRun : Bool} {advances : List (String × Int)}
    (h : AllowedCheck past (.advanceWatermarks advances)) :
    (writeAdvances dryRun advances).Obeys AllowedCheck past fun past' _ =>
      dryRun = false → advances ≠ [] → said (.advanceWatermarks advances) (.ok ()) ∈ past' := by
  unfold writeAdvances
  split
  · refine obeys_statement (by exact h) fun answer => ?_
    cases answer with
    | ok _ => exact Prog.obeys_pure fun _ _ => List.mem_append_right _ (List.mem_singleton_self _)
    | error e => exact Prog.obeys_throw
  · next hskip => exact Prog.obeys_pure fun hdry hsome => absurd ⟨hdry, hsome⟩ hskip

/-- A result comes from the queries of its check, and from its writes. -/
theorem checkTriggersMulti_obeys (args : CheckArgs) :
    args.program.Obeys AllowedCheck [] (Returned args) := by
  unfold CheckArgs.program checkTriggersMulti
  split
  · exact Prog.obeys_pure nofun
  refine obeys_statement (by trivial) fun answer => obeys_orThrow fun read hread => ?_
  subst hread
  refine obeys_statement (by trivial) fun now => ?_
  refine Prog.Obeys.bind obeys_initMissing fun past _ hinit _ => ?_
  have hread : said (.readWatermarks args.jids) (.ok read) ∈ past := hinit (by simp)
  have hempty : Collected args past (⟨0, []⟩, []) := ⟨⟨List.nodup_nil, nofun⟩, nofun⟩
  refine Prog.Obeys.bind (obeys_queryEach hread (fun _ hjid => hjid) hempty)
    fun past found _ hcollected => ?_
  obtain ⟨result, advances⟩ := found
  refine Prog.Obeys.bind (obeys_writeAdvances hcollected.1) fun past' _ hsub hwritten => ?_
  refine Prog.obeys_pure fun jid group hgroup => ?_
  obtain ⟨hqueried, last, hlast, hadvance⟩ := hcollected.2 jid group hgroup
  refine ⟨hqueried.mono hsub, fun hdry => ⟨last, advances, hlast, hadvance, hwritten hdry ?_⟩⟩
  intro hnil
  rw [hnil] at hadvance
  cases hadvance

end Obeys

/-! ## What the tables keep -/

/-- The message is stored, at an instant that is not later. -/
def TriggerTables.Holds (s : TriggerTables) (m : StoredMessage) : Prop :=
  ∃ stored, s.messages.lookup m.key = some stored ∧ stored.timestamp ≤ m.timestamp

/-- The watermark of the chat has reached an instant. -/
def TriggerTables.Reached (s : TriggerTables) (jid : String) (ts : Int) : Prop :=
  ∃ row, s.watermarks.lookup jid = some row ∧ ts ≤ row.lastSeen

section Tables

variable {ilike : String → String → Bool} {s t : TriggerTables} {advances : List (String × Int)}
  {jid : String} {ts : Int}

theorem lookup_written_of_ne (h : jid ∉ advances.map Prod.fst) :
    (s.written advances).watermarks.lookup jid = s.watermarks.lookup jid := by
  unfold TriggerTables.written
  induction advances generalizing s with
  | nil => rfl
  | cons a rest ih =>
    rw [List.map_cons, List.mem_cons, not_or] at h
    show (rest.foldl _ (advanceWatermark s.watermarks a.1 a.2)).lookup jid = _
    rw [ih (s := { s with watermarks := advanceWatermark s.watermarks a.1 a.2 }) h.2]
    show (advanceWatermark s.watermarks a.1 a.2).lookup jid = _
    rw [lookup_advanceWatermark, if_neg h.1]

theorem lookup_written_of_mem (hnodup : (advances.map Prod.fst).Nodup) (h : (jid, ts) ∈ advances) :
    (s.written advances).watermarks.lookup jid = some ⟨jid, ts⟩ := by
  induction advances generalizing s with
  | nil => cases h
  | cons a rest ih =>
    rw [List.map_cons, List.nodup_cons] at hnodup
    have hfirst : s.written (a :: rest) =
        ({ s with watermarks := advanceWatermark s.watermarks a.1 a.2 } : TriggerTables).written rest := rfl
    rw [hfirst]
    rcases List.mem_cons.mp h with rfl | hrest
    · rw [lookup_written_of_ne hnodup.1]
      show (advanceWatermark s.watermarks jid ts).lookup jid = _
      rw [lookup_advanceWatermark, if_pos rfl]
    · exact ih hnodup.2 hrest

theorem lookup_initWatermarks {w : Table WatermarkRow String WatermarkRow.jid}
    {missing : List String} {now : Int} {row : WatermarkRow} (h : w.lookup jid = some row) :
    (missing.foldl (fun w jid => initWatermark w jid now) w).lookup jid = some row := by
  induction missing generalizing w with
  | nil => exact h
  | cons other rest ih =>
    refine ih ?_
    rw [lookup_initWatermark]
    split
    · next hnone =>
      rw [hnone.1] at h
      rw [hnone.2] at h
      cases h
    · exact h

/-- A write that is not below what stands there. -/
theorem written_reached (hnodup : (advances.map Prod.fst).Nodup)
    (htimely : ∀ a ∈ advances, ∀ row, s.watermarks.lookup a.1 = some row → row.lastSeen ≤ a.2)
    (h : s.Reached jid ts) : (s.written advances).Reached jid ts := by
  obtain ⟨row, hrow, hts⟩ := h
  by_cases hmem : jid ∈ advances.map Prod.fst
  · obtain ⟨⟨_, ts'⟩, ha, rfl⟩ := List.mem_map.mp hmem
    exact ⟨_, lookup_written_of_mem hnodup ha, hts.trans (htimely _ ha row hrow)⟩
  · exact ⟨row, (lookup_written_of_ne hmem).trans hrow, hts⟩

/-- What a statement keeps. -/
theorem answers_onward {q : TriggerQuery} {a : q.Answer} {past : CheckPast}
    (h : TriggerAnswers ilike s q a t) (hallowed : AllowedCheck past q)
    (htimely : ∀ advances, q = .advanceWatermarks advances → ∀ a ∈ advances, ∀ row,
      s.watermarks.lookup a.1 = some row → row.lastSeen ≤ a.2) :
    t.messages = s.messages ∧ ∀ jid ts, s.Reached jid ts → t.Reached jid ts := by
  cases h with
  | initWatermarks =>
    refine ⟨rfl, fun jid ts hreached => ?_⟩
    obtain ⟨row, hrow, hts⟩ := hreached
    exact ⟨row, lookup_initWatermarks hrow, hts⟩
  | advanceWatermarks =>
    exact ⟨rfl, fun jid ts hreached => written_reached hallowed.1 (htimely _ rfl) hreached⟩
  | _ => exact ⟨rfl, fun _ _ hreached => hreached⟩

end Tables

/-! ## Steps -/

/-- The invariant: every answer so far agrees with the tables. -/
structure Checking.Facts (p : Checking) : Prop where
  obedient : p.Obedient (fun _ => AllowedCheck) Returned
  queried : ∀ i args th, p.threads i = some (args, th) → ∀ jid wm filters limit msgs,
    said (.queryTriggers jid wm filters limit) (.ok msgs) ∈ th.past →
    msgs.Pairwise (fun m m' => m.timestamp ≤ m'.timestamp) ∧
      ∀ m ∈ msgs, m.chatJid = jid ∧ wm < m.timestamp ∧ p.world.Holds m
  written : ∀ i args th, p.threads i = some (args, th) → ∀ advances,
    said (.advanceWatermarks advances) (.ok ()) ∈ th.past → ∀ a ∈ advances, p.world.Reached a.1 a.2

section Steps

variable {ilike : String → String → Bool} {p q : Checking}
  {d : Option (Nat × Said TriggerQuery.Answer)}

/-- A timely write is above what stands there, since its query was. -/
theorem Checking.Facts.above {i : Nat} {args : CheckArgs}
    {th : Thread TriggerQuery TriggerQuery.Answer TriggerError TriggerCheckResult}
    {turn : Said TriggerQuery.Answer} {advances : List (String × Int)} (hp : p.Facts)
    (htimely : p.Timely (some (i, turn)) q) (hthread : p.threads i = some (args, th))
    (hquery : turn.query = .advanceWatermarks advances)
    (hallowed : AllowedCheck th.past (.advanceWatermarks advances)) :
    ∀ a ∈ advances, ∀ row, p.world.watermarks.lookup a.1 = some row → row.lastSeen ≤ a.2 := by
  intro a ha row hrow
  obtain ⟨wm, filters, limit, msgs, last, hsaid, hlast, hts⟩ := hallowed.2 a ha
  have hread : row.lastSeen ≤ wm :=
    htimely.unraised _ _ _ _ _ rfl hquery hthread a ha wm filters limit _ hsaid row hrow
  have hquery : wm < last.timestamp :=
    ((hp.queried _ _ _ hthread _ _ _ _ _ hsaid).2 last (List.mem_of_getLast? hlast)).2.1
  omega

/-- What a timely step keeps of the tables. -/
theorem world_onward (hp : p.Facts) (hstep : Checking.Step ilike p d q) (htimely : p.Timely d q) :
    (∀ m, p.world.Holds m → q.world.Holds m) ∧
      ∀ jid ts, p.world.Reached jid ts → q.world.Reached jid ts := by
  have hholds : (∀ key old, p.world.messages.lookup key = some old →
      ∃ new, q.world.messages.lookup key = some new) → ∀ m, p.world.Holds m → q.world.Holds m := by
    intro hkept m hm
    obtain ⟨old, hold, hts⟩ := hm
    obtain ⟨new, hnew⟩ := hkept _ _ hold
    exact ⟨new, hnew, (htimely.stores _ _ _ hold hnew).trans hts⟩
  cases hstep with
  | move hmove =>
    obtain ⟨hwatermarks, m, hm, hothers⟩ := hmove
    refine ⟨hholds fun key old hold => ?_, fun jid ts hreached => ?_⟩
    · by_cases hkey : key = m.key
      · exact ⟨m, hkey ▸ hm⟩
      · exact ⟨old, (hothers key hkey).trans hold⟩
    · obtain ⟨row, hrow, hts⟩ := hreached
      exact ⟨row, by rw [hwatermarks]; exact hrow, hts⟩
  | start => exact ⟨fun _ h => h, fun _ _ h => h⟩
  | ask hthread hask =>
    have hallowed := hp.obedient.asked hthread hask
    cases hask with
    | ask answer =>
      obtain ⟨hmessages, hreached⟩ := answers_onward answer hallowed fun advances hquery =>
        hp.above htimely hthread hquery (hquery ▸ hallowed)
      exact ⟨hholds fun key old hold =>
        ⟨old, (congrArg (fun m => m.lookup key) hmessages).trans hold⟩, hreached⟩

/-- The rows that a query of a chat returns. -/
theorem queried_answer {s t : TriggerTables} {jid : String} {wm : Int} {filters : TriggerFilters}
    {limit : Nat} {msgs : List StoredMessage}
    (h : TriggerAnswers ilike s (.queryTriggers jid wm filters limit) (.ok msgs) t) :
    msgs.Pairwise (fun m m' => m.timestamp ≤ m'.timestamp) ∧
      ∀ m ∈ msgs, m.chatJid = jid ∧ wm < m.timestamp ∧ t.Holds m := by
  cases h with
  | queryTriggers hrows =>
    refine ⟨?_, fun m hm => ?_⟩
    · obtain ⟨sorted, -, hsorted, rfl⟩ := hrows
      exact hsorted.sublist (List.take_sublist ..)
    · obtain ⟨hmem, hsel⟩ := Table.mem_of_selects hrows hm
      simp only [triggers, Bool.and_eq_true, decide_eq_true_eq] at hsel
      exact ⟨hsel.1.1.1.1, hsel.1.1.1.2, m, Table.lookup_of_mem hmem, le_refl _⟩

/-- What a write has reached. -/
theorem written_answer {s t : TriggerTables} {advances : List (String × Int)}
    (h : TriggerAnswers ilike s (.advanceWatermarks advances) (.ok ()) t)
    (hnodup : (advances.map Prod.fst).Nodup) : ∀ a ∈ advances, t.Reached a.1 a.2 := by
  cases h with
  | advanceWatermarks => exact fun a ha => ⟨_, lookup_written_of_mem hnodup ha, le_refl _⟩

/-- The answers go on agreeing with the tables. -/
theorem facts_step (hp : p.Facts) (hstep : Checking.Step ilike p d q) (htimely : p.Timely d q) :
    q.Facts := by
  obtain ⟨hholds, hreached⟩ := world_onward hp hstep htimely
  refine ⟨hstep.obedient checkTriggersMulti_obeys hp.obedient, ?_, ?_⟩
  · intro i args th hthread jid wm filters limit msgs hsaid
    obtain ⟨th₀, hold, hbefore | ⟨-, hask⟩⟩ := hstep.said_cases hthread hsaid
    · obtain ⟨hsorted, hall⟩ := hp.queried _ _ _ hold _ _ _ _ _ hbefore
      exact ⟨hsorted, fun m hm => ⟨(hall m hm).1, (hall m hm).2.1, hholds m (hall m hm).2.2⟩⟩
    · exact queried_answer hask.answer
  · intro i args th hthread advances hsaid
    obtain ⟨th₀, hold, hbefore | ⟨-, hask⟩⟩ := hstep.said_cases hthread hsaid
    · exact fun a ha => hreached _ _ (hp.written _ _ _ hold _ hbefore a ha)
    · exact written_answer hask.answer (hp.obedient.asked hold hask).1

end Steps

/-! ## Checks that start later -/

/-- The result has the message, in the group of some chat. -/
def TriggerCheckResult.Has (r : TriggerCheckResult) (m : StoredMessage) : Prop :=
  ∃ jid group, (jid, group) ∈ r.groups ∧ m ∈ group.messages

/-- What a check that reads the chat from now on has read: a watermark that has reached
the instant, and the message not at a later instant. -/
structure Behind (jid : String) (ts : Int) (m : StoredMessage) (past : CheckPast) : Prop where
  read : ∀ jids rows, said (.readWatermarks jids) (.ok rows) ∈ past → jid ∈ jids →
    ∀ now, ts ≤ watermarkOf rows now jid
  queried : ∀ other wm filters limit msgs,
    said (.queryTriggers other wm filters limit) (.ok msgs) ∈ past →
    ∀ m' ∈ msgs, m'.key = m.key → m'.timestamp ≤ m.timestamp

section Later

variable {ilike : String → String → Bool} {s t : TriggerTables} {jid : String} {ts : Int}
  {m : StoredMessage}

/-- The watermark of a chat whose row was read. -/
theorem watermarkOf_read {jids : List String} {rows : List WatermarkRow}
    (h : TriggerAnswers ilike s (.readWatermarks jids) (.ok rows) t) (hjid : jid ∈ jids)
    (hreached : s.Reached jid ts) (now : Int) : ts ≤ watermarkOf rows now jid := by
  obtain ⟨row, hrow, hts⟩ := hreached
  cases h with
  | readWatermarks =>
    have hrowjid : row.jid = jid := Table.lookup_key hrow
    have hfilter : (s.watermarks.rows.filter fun r => r.jid ∈ jids).find? (fun r => r.jid = jid) =
        some row := by
      rw [List.find?_filter]
      refine Eq.trans ?_ hrow
      unfold Table.lookup
      congr 1
      funext r
      by_cases hr : r.jid = jid
      · simp [hr, hjid]
      · simp [hr]
    simp only [watermarkOf, hfilter, Option.map_some, Option.getD_some]
    exact hts

/-- A message that is held is not returned at a later instant. -/
theorem queried_behind {other : String} {wm : Int} {filters : TriggerFilters} {limit : Nat}
    {msgs : List StoredMessage}
    (h : TriggerAnswers ilike s (.queryTriggers other wm filters limit) (.ok msgs) t)
    (hholds : s.Holds m) : ∀ m' ∈ msgs, m'.key = m.key → m'.timestamp ≤ m.timestamp := by
  intro m' hm' hkey
  obtain ⟨stored, hstored, hts⟩ := hholds
  cases h with
  | queryTriggers hrows =>
    have hfound := Table.lookup_of_mem (Table.mem_of_selects hrows hm').1
    rw [hkey, hstored] at hfound
    cases hfound
    exact hts

end Later

/-- The invariant of the checks that have not started yet. -/
structure Checking.Later (late : Nat → Prop) (jid : String) (ts : Int) (m : StoredMessage)
    (p : Checking) : Prop where
  facts : p.Facts
  reached : p.world.Reached jid ts
  holds : p.world.Holds m
  behind : ∀ i args th, late i → p.threads i = some (args, th) → Behind jid ts m th.past

section Runs

variable {ilike : String → String → Bool} {p q : Checking}
  {d : Option (Nat × Said TriggerQuery.Answer)} {late : Nat → Prop} {jid : String} {ts : Int}
  {m : StoredMessage}

theorem later_step (hp : p.Later late jid ts m) (hstep : Checking.Step ilike p d q)
    (htimely : p.Timely d q) : q.Later late jid ts m := by
  obtain ⟨hholds, hreached⟩ := world_onward hp.facts hstep htimely
  refine ⟨facts_step hp.facts hstep htimely, hreached _ _ hp.reached, hholds _ hp.holds,
    fun i args th hlate hthread => ⟨?_, ?_⟩⟩
  · intro jids rows hsaid hjid now
    obtain ⟨th₀, hold, hbefore | ⟨-, hask⟩⟩ := hstep.said_cases hthread hsaid
    · exact (hp.behind i args th₀ hlate hold).read _ _ hbefore hjid now
    · exact watermarkOf_read hask.answer hjid hp.reached now
  · intro other wm filters limit msgs hsaid
    obtain ⟨th₀, hold, hbefore | ⟨-, hask⟩⟩ := hstep.said_cases hthread hsaid
    · exact (hp.behind i args th₀ hlate hold).queried _ _ _ _ _ hbefore
    · exact queried_behind hask.answer hp.holds

/-- No check has started yet. -/
theorem facts_initial (s : TriggerTables) : Checking.Facts ⟨s, fun _ => none⟩ :=
  ⟨nofun, nofun, nofun⟩

/-- A run of timely steps. -/
abbrev Checking.Run (ilike : String → String → Bool) :=
  Exec fun (p : Checking) d q => Checking.Step ilike p d q ∧ p.Timely d q

/-- What a check has returned it has written, and what it has written is reached. -/
theorem Checking.Facts.returned (hp : p.Facts) {i : Nat} {args : CheckArgs} {past : CheckPast}
    {r : TriggerCheckResult} (hend : p.threads i = some (args, ⟨past, .done r⟩))
    (hdry : args.dryRun = false) (hm : r.Has m) :
    p.world.Holds m ∧ ∃ ts, m.timestamp ≤ ts ∧ p.world.Reached m.chatJid ts := by
  obtain ⟨jid, group, hgroup, hmem⟩ := hm
  obtain ⟨⟨read, now, filters, limit, -, -, hquery⟩, hwritten⟩ := hp.obedient.ended hend jid group hgroup
  obtain ⟨last, advances, hlast, hadvance, hsaid⟩ := hwritten hdry
  obtain ⟨hsorted, hall⟩ := hp.queried _ _ _ hend _ _ _ _ _ hquery
  obtain ⟨rfl, -, hholds⟩ := hall m hmem
  refine ⟨hholds, last.timestamp, ?_, hp.written _ _ _ hend _ hsaid _ hadvance⟩
  obtain ⟨front, hsplit⟩ := List.getLast?_eq_some_iff.mp hlast
  rw [hsplit, List.pairwise_append] at hsorted
  rw [hsplit, List.mem_append, List.mem_singleton] at hmem
  rcases hmem with hfront | rfl
  · exact hsorted.2.2 m hfront last (List.mem_singleton_self _)
  · exact le_refl _

/-- A later check returns messages above the watermark that it has read. -/
theorem Checking.Later.returned (hq : q.Later late m.chatJid ts m) (hts : m.timestamp ≤ ts) {j : Nat}
    {args : CheckArgs} {past : CheckPast} {r : TriggerCheckResult} (hlate : late j)
    (hend : q.threads j = some (args, ⟨past, .done r⟩)) {m' : StoredMessage} (hm' : r.Has m') :
    m.key ≠ m'.key := by
  intro hkey
  obtain ⟨jid, group, hgroup, hmem⟩ := hm'
  obtain ⟨⟨read, now, filters, limit, hread, hjid, hquery⟩, -⟩ :=
    hq.facts.obedient.ended hend jid group hgroup
  obtain ⟨hchat, habove, -⟩ := (hq.facts.queried _ _ _ hend _ _ _ _ _ hquery).2 m' hmem
  have hsame : m.chatJid = jid := (congrArg Prod.snd hkey).trans hchat
  have hbehind := hq.behind j args _ hlate hend
  have hreached : ts ≤ watermarkOf read now jid := hsame ▸ hbehind.read _ _ hread (hsame ▸ hjid) now
  have hstored : m'.timestamp ≤ m.timestamp := hbehind.queried _ _ _ _ _ hquery m' hmem hkey.symm
  omega

/-- From one state to a later one no watermark falls, and what a check has returned by
then, dry runs apart, is not returned by a check that starts later. -/
def Checking.Onward (p q : Checking) : Prop :=
  (∀ jid ts, p.world.Reached jid ts → q.world.Reached jid ts) ∧
    ∀ i j args args' past past' r r', args.dryRun = false →
      p.threads i = some (args, ⟨past, .done r⟩) → p.threads j = none →
      q.threads j = some (args', ⟨past', .done r'⟩) →
      ∀ m m', r.Has m → r'.Has m' → m.key ≠ m'.key

/-- Runs of timely steps lead onward. -/
theorem watermarks_monotone {s : TriggerTables}
    {ds es : List (Option (Nat × Said TriggerQuery.Answer))}
    (before : Checking.Run ilike ⟨s, fun _ => none⟩ ds p) (after : Checking.Run ilike p es q) :
    p.Onward q := by
  have hp : p.Facts := before.invariant (facts_initial s) fun _ _ _ hs hstep =>
    facts_step hs hstep.1 hstep.2
  constructor
  · intro jid ts hreached
    suffices q.Facts ∧ q.world.Reached jid ts from this.2
    refine after.invariant (P := fun u => u.Facts ∧ u.world.Reached jid ts) ⟨hp, hreached⟩
      fun u d v hu hstep => ?_
    exact ⟨facts_step hu.1 hstep.1 hstep.2, (world_onward hu.1 hstep.1 hstep.2).2 _ _ hu.2⟩
  · intro i j args args' past past' r r' hdry hend hidle hend' m m' hm hm'
    obtain ⟨hholds, ts, hts, hreached⟩ := hp.returned hend hdry hm
    have hnone : ∀ k args th, p.threads k = none → p.threads k = some (args, th) →
        Behind m.chatJid ts m th.past := by
      intro k args th hidle hthread
      rw [hidle] at hthread
      cases hthread
    have hq : q.Later (fun k => p.threads k = none) m.chatJid ts m :=
      after.invariant ⟨hp, hreached, hholds, hnone⟩ fun u d v hu hstep =>
        later_step hu hstep.1 hstep.2
    exact hq.returned hts hidle hend' hm'

end Runs

/-! ## Sample checks -/

/-- A check for one message of one chat. -/
def sampleCheck (jid : String) : CheckArgs := ⟨[jid], noFilters, 1, false⟩

/-- No check has started in the sample tables. -/
def sampleChecking : Checking := ⟨sampleTriggers 1000 2000, fun _ => none⟩

/-- No content matches, as no filter asks. -/
abbrev noMatch (_ _ : String) : Bool := false

theorem sampleFirst : (sampleTriggers 1000 2000).messages.Selects
    (triggers noMatch "15@lid" 0 noFilters) (·.timestamp) 1 [sampleInbound "M1" 1000] :=
  ⟨[sampleInbound "M1" 1000, sampleInbound "M2" 2000], by decide, by decide, rfl⟩

theorem sampleSecond : (sampleTriggers 1000 2000).messages.Selects
    (triggers noMatch "15@lid" 1000 noFilters) (·.timestamp) 1 [sampleInbound "M2" 2000] :=
  ⟨[sampleInbound "M2" 2000], by decide, by decide, rfl⟩

section Samples

variable {p : Checking} {i : Nat}

/-- A statement that is answered between others. -/
theorem statement_run {args : CheckArgs} {past : CheckPast} {q : TriggerQuery}
    {next : q.Answer → Check TriggerCheckResult} {a : q.Answer} {t : TriggerTables}
    (hthread : p.threads i = some (args, ⟨past, .ask q next⟩))
    (hanswer : TriggerAnswers noMatch p.world q a t) (hmessages : t.messages = p.world.messages)
    (hunraised : ∀ advances, q = .advanceWatermarks advances → ∀ a ∈ advances,
      ∀ wm filters limit answer, said (.queryTriggers a.1 wm filters limit) answer ∈ past →
      ∀ row, p.world.watermarks.lookup a.1 = some row → row.lastSeen ≤ wm) :
    Checking.Run noMatch p [some (i, said q a)] (p.set i t args ⟨past ++ [said q a], next a⟩) := by
  refine .single ⟨.ask hthread (.ask hanswer), ⟨?_, ?_⟩⟩
  · intro j turn advances args' th hd hq hth
    cases hd
    rw [hthread] at hth
    cases hth
    exact hunraised advances hq
  · intro key old new hold hnew
    have hsame : t.messages.lookup key = some new := hnew
    rw [hmessages, hold] at hsame
    cases hsame
    exact le_refl _

/-- A check for one message, up to its query. -/
theorem sampleCheck_reads (jid : String) {wm : Int} (hidle : p.threads i = none)
    (hrow : p.world.watermarks.rows.filter (fun r => r.jid ∈ [jid]) = [⟨jid, wm⟩]) :
    ∃ ds q past next, Checking.Run noMatch p ds q ∧ q.world = p.world ∧
      q.threads i = some (sampleCheck jid, ⟨past, .ask (.queryTriggers jid wm noFilters 1) next⟩) ∧
      (∀ m, next (.ok [m]) = do
        writeAdvances false [(jid, m.timestamp)]
        return resultOf jid [m]) ∧
      (∀ j ≠ i, q.threads j = p.threads j) ∧
      ∀ other wm' filters limit answer, said (.queryTriggers other wm' filters limit) answer ∉ past := by
  have hread : TriggerAnswers noMatch p.world (.readWatermarks [jid]) (.ok [⟨jid, wm⟩]) p.world := by
    have hrows : TriggerAnswers noMatch p.world (.readWatermarks [jid]) _ p.world := .readWatermarks
    rwa [hrow] at hrows
  have hstart : Checking.Run noMatch p [none]
      (p.set i p.world (sampleCheck jid) ⟨[], (sampleCheck jid).program⟩) := by
    refine .single ⟨.start hidle trivial, ⟨fun j turn advances args th hd => ?_, fun key old new hold hnew => ?_⟩⟩
    · cases hd
    · cases hold.symm.trans hnew
      exact le_refl _
  have hmissing : missing [⟨jid, wm⟩] [jid] = [] := by simp [missing]
  have hwatermark : watermarkOf [⟨jid, wm⟩] 5000 jid = wm := by simp [watermarkOf]
  obtain ⟨next, hprogram, hnext⟩ : ∃ next, (do
      initMissing false (missing [⟨jid, wm⟩] [jid]) 5000
      let answered ← queryEach (watermarkOf [⟨jid, wm⟩] 5000) noFilters 1 [jid] (⟨0, []⟩, [])
      writeAdvances false answered.2
      return answered.1) = Prog.ask (.queryTriggers jid wm noFilters 1) next ∧
      ∀ m, next (.ok [m]) = do
        writeAdvances false [(jid, m.timestamp)]
        return resultOf jid [m] := by
    rw [hmissing, queryEach, hwatermark]
    exact ⟨_, rfl, fun m => rfl⟩
  have hasked := (hstart.append (statement_run Pool.set_self hread rfl fun _ h => by cases h)).append
    (statement_run Pool.set_self (.now (t := 5000)) rfl fun _ h => by cases h)
  refine ⟨_, _, _, next, hasked, rfl,
    Pool.set_self.trans (congrArg (fun prog => some (sampleCheck jid, Thread.mk _ prog)) hprogram), hnext,
    fun j hj => by simp only [Pool.set_of_ne hj], ?_⟩
  intro other wm' filters limit answer hsaid
  simp at hsaid

/-- Its query. -/
theorem sampleCheck_queries {jid : String} {wm : Int} {m : StoredMessage} {past : CheckPast}
    {next : Except TriggerError (List StoredMessage) → Check TriggerCheckResult}
    (hthread : p.threads i =
      some (sampleCheck jid, ⟨past, .ask (.queryTriggers jid wm noFilters 1) next⟩))
    (hpage : p.world.messages.Selects (triggers noMatch jid wm noFilters) (·.timestamp) 1 [m]) :
    ∃ ds q, Checking.Run noMatch p ds q ∧ q.world = p.world ∧
      q.threads i = some (sampleCheck jid,
        ⟨past ++ [said (.queryTriggers jid wm noFilters 1) (.ok [m])], next (.ok [m])⟩) ∧
      ∀ j ≠ i, q.threads j = p.threads j :=
  ⟨_, _, statement_run hthread (.queryTriggers hpage) rfl nofun, rfl, Pool.set_self,
    fun _ hj => Pool.set_of_ne hj⟩

/-- Its write, where the watermark is the one of its query. -/
theorem sampleCheck_writes {jid : String} {wm : Int} {m : StoredMessage} {past : CheckPast}
    (hthread : p.threads i = some (sampleCheck jid, ⟨past, do
      writeAdvances false [(jid, m.timestamp)]
      return resultOf jid [m]⟩))
    (hrow : p.world.watermarks.rows.filter (fun r => r.jid ∈ [jid]) = [⟨jid, wm⟩])
    (hqueried : ∀ other wm' filters limit answer,
      said (.queryTriggers other wm' filters limit) answer ∈ past → wm' = wm) :
    ∃ ds q past', Checking.Run noMatch p ds q ∧
      q.threads i = some (sampleCheck jid, ⟨past', .done (resultOf jid [m])⟩) ∧
      q.world = p.world.written [(jid, m.timestamp)] ∧ ∀ j ≠ i, q.threads j = p.threads j := by
  have hwritten : TriggerAnswers noMatch p.world (.advanceWatermarks [(jid, m.timestamp)])
      (.ok ()) (p.world.written [(jid, m.timestamp)]) := .advanceWatermarks
  refine ⟨_, _, _, statement_run hthread hwritten rfl ?_, Pool.set_self, rfl, fun j hj => Pool.set_of_ne hj⟩
  intro advances hadvances a ha wm' filters limit answer hsaid row hlookup
  cases hadvances
  obtain rfl := List.mem_singleton.mp ha
  have hmem : row ∈ p.world.watermarks.rows.filter (fun r => r.jid ∈ [jid]) :=
    List.mem_filter.mpr ⟨Table.mem_of_lookup hlookup, by simp [show row.jid = jid from Table.lookup_key hlookup]⟩
  rw [hrow, List.mem_singleton] at hmem
  exact hmem ▸ (hqueried _ _ _ _ _ hsaid).ge

/-- Its query is the only one. -/
theorem queried_once {jid : String} {wm : Int} {past : CheckPast}
    {a : Except TriggerError (List StoredMessage)} (h : ∀ other wm' filters limit answer,
      said (.queryTriggers other wm' filters limit) answer ∉ past) :
    ∀ other wm' filters limit answer, said (.queryTriggers other wm' filters limit) answer ∈
      past ++ [said (.queryTriggers jid wm noFilters 1) a] → wm' = wm := by
  intro other wm' filters limit answer hsaid
  rcases List.mem_append.mp hsaid with hsaid | hsaid
  · exact absurd hsaid (h _ _ _ _ _)
  · cases List.mem_singleton.mp hsaid
    rfl

/-- A check for one message, with nothing between its statements, up to its write. -/
theorem sampleCheck_ready (jid : String) {wm : Int} {m : StoredMessage} (hidle : p.threads i = none)
    (hrow : p.world.watermarks.rows.filter (fun r => r.jid ∈ [jid]) = [⟨jid, wm⟩])
    (hpage : p.world.messages.Selects (triggers noMatch jid wm noFilters) (·.timestamp) 1 [m]) :
    ∃ ds q past, Checking.Run noMatch p ds q ∧ q.world = p.world ∧
      q.threads i = some (sampleCheck jid, ⟨past, do
        writeAdvances false [(jid, m.timestamp)]
        return resultOf jid [m]⟩) ∧
      (∀ j ≠ i, q.threads j = p.threads j) ∧
      ∀ other wm' filters limit answer, said (.queryTriggers other wm' filters limit) answer ∈ past →
        wm' = wm := by
  obtain ⟨ds, q, past, next, hread, hworld, hthread, hnext, hothers, hnone⟩ := sampleCheck_reads jid hidle hrow
  obtain ⟨es, r, hquery, hworld', hthread', hothers'⟩ := sampleCheck_queries hthread (hworld ▸ hpage)
  rw [hnext] at hthread'
  exact ⟨_, r, _, hread.append hquery, hworld'.trans hworld, hthread',
    fun j hj => (hothers' j hj).trans (hothers j hj), queried_once hnone⟩

/-- A check for one message, with nothing between its statements. -/
theorem sampleCheck_run (jid : String) {wm : Int} {m : StoredMessage} (hidle : p.threads i = none)
    (hrow : p.world.watermarks.rows.filter (fun r => r.jid ∈ [jid]) = [⟨jid, wm⟩])
    (hpage : p.world.messages.Selects (triggers noMatch jid wm noFilters) (·.timestamp) 1 [m]) :
    ∃ ds q past, Checking.Run noMatch p ds q ∧
      q.threads i = some (sampleCheck jid, ⟨past, .done (resultOf jid [m])⟩) ∧
      q.world = p.world.written [(jid, m.timestamp)] ∧ ∀ j ≠ i, q.threads j = p.threads j := by
  obtain ⟨ds, q, past, run, hworld, hthread, hothers, hqueried⟩ := sampleCheck_ready jid hidle hrow hpage
  obtain ⟨es, r, past', hwrite, hdone, hworld', hothers'⟩ :=
    sampleCheck_writes hthread (hworld ▸ hrow) hqueried
  exact ⟨_, r, past', run.append hwrite, hdone, hworld ▸ hworld',
    fun j hj => (hothers' j hj).trans (hothers j hj)⟩

/-- A message of another chat. -/
def sampleOther : StoredMessage := { sampleInbound "N1" 1500 with chatJid := "16@lid" }

/-- The messages of `sampleTriggers` and the other, and a watermark for each chat. -/
def sampleChats : TriggerTables where
  messages := ⟨[sampleInbound "M1" 1000, sampleInbound "M2" 2000, sampleOther], by
    show [("M1", "15@lid"), ("M2", "15@lid"), ("N1", "16@lid")].Nodup
    decide⟩
  watermarks := ⟨[⟨"15@lid", 0⟩, ⟨"16@lid", 0⟩], by decide⟩

/-- Two checks of different chats, statement by statement beside each other, and a third that
starts when the first has ended and the second has still to write. -/
theorem watermarks_monotone_of_sampleChecking : ∃ p q : Checking,
    (∃ past r, p.threads 0 = some (sampleCheck "15@lid", ⟨past, .done r⟩) ∧
      r.Has (sampleInbound "M1" 1000)) ∧
    (∃ past past' r, p.threads 1 = some (sampleCheck "16@lid", ⟨past, do
        writeAdvances false [("16@lid", sampleOther.timestamp)]
        return r⟩) ∧
      q.threads 1 = some (sampleCheck "16@lid", ⟨past', .done r⟩)) ∧
    (∃ past r, p.threads 2 = none ∧ q.threads 2 = some (sampleCheck "15@lid", ⟨past, .done r⟩) ∧
      r.Has (sampleInbound "M2" 2000)) ∧ p.Onward q := by
  have hM1 : sampleChats.messages.Selects (triggers noMatch "15@lid" 0 noFilters) (·.timestamp) 1
      [sampleInbound "M1" 1000] :=
    ⟨[sampleInbound "M1" 1000, sampleInbound "M2" 2000], by decide, by decide, rfl⟩
  have hN1 : sampleChats.messages.Selects (triggers noMatch "16@lid" 0 noFilters) (·.timestamp) 1
      [sampleOther] := ⟨[sampleOther], by decide, by decide, rfl⟩
  have hM2 : sampleChats.messages.Selects (triggers noMatch "15@lid" 1000 noFilters) (·.timestamp) 1
      [sampleInbound "M2" 2000] := ⟨[sampleInbound "M2" 2000], by decide, by decide, rfl⟩
  -- both checks read, both query, and the first writes
  obtain ⟨_, p₁, _, _, read₀, hw₁, ht₁, hn₁, ho₁, hq₁⟩ := sampleCheck_reads "15@lid"
    (p := ⟨sampleChats, fun _ => none⟩) (i := 0) rfl rfl
  obtain ⟨_, p₂, _, _, read₁, hw₂, ht₂, hn₂, ho₂, hq₂⟩ := sampleCheck_reads "16@lid"
    (p := p₁) (i := 1) (ho₁ 1 (by decide)) (by rw [hw₁]; rfl)
  obtain ⟨_, p₃, query₀, hw₃, ht₃, ho₃⟩ := sampleCheck_queries ((ho₂ 0 (by decide)).trans ht₁)
    (by rw [hw₂, hw₁]; exact hM1)
  obtain ⟨_, p₄, query₁, hw₄, ht₄, ho₄⟩ := sampleCheck_queries ((ho₃ 1 (by decide)).trans ht₂)
    (by rw [hw₃, hw₂, hw₁]; exact hN1)
  rw [hn₁] at ht₃
  rw [hn₂] at ht₄
  have hworld : p₄.world = sampleChats := ((hw₄.trans hw₃).trans hw₂).trans hw₁
  obtain ⟨_, p, past₀, write₀, hend₀, hw, ho⟩ := sampleCheck_writes ((ho₄ 0 (by decide)).trans ht₃)
    (by rw [hworld]; rfl) (queried_once hq₁)
  have hidle : p.threads 2 = none := by
    rw [ho 2 (by decide), ho₄ 2 (by decide), ho₃ 2 (by decide), ho₂ 2 (by decide), ho₁ 2 (by decide)]
  -- the third reads, the second writes, and the third goes on
  obtain ⟨_, q₁, _, _, read₂, hv₁, hs₁, hm₁, hr₁, hp₁⟩ := sampleCheck_reads "15@lid"
    (p := p) (i := 2) hidle (by rw [hw, hworld]; rfl)
  obtain ⟨_, q₂, past₁, write₁, hend₁, hv₂, hr₂⟩ := sampleCheck_writes
    ((hr₁ 1 (by decide)).trans ((ho 1 (by decide)).trans ht₄))
    (by rw [hv₁, hw, hworld]; rfl) (queried_once hq₂)
  obtain ⟨_, q₃, query₂, hv₃, hs₃, hr₃⟩ := sampleCheck_queries ((hr₂ 2 (by decide)).trans hs₁)
    (by rw [hv₂, hv₁, hw, hworld]; exact hM2)
  rw [hm₁] at hs₃
  obtain ⟨_, q, past₂, write₂, hend₂, -, hr⟩ := sampleCheck_writes hs₃
    (by rw [hv₃, hv₂, hv₁, hw, hworld]; rfl) (queried_once hp₁)
  have before := (((read₀.append read₁).append query₀).append query₁).append write₀
  have after := ((read₂.append write₁).append query₂).append write₂
  exact ⟨p, q,
    ⟨past₀, _, hend₀, "15@lid", _, List.mem_singleton_self _, List.mem_singleton_self _⟩,
    ⟨_, past₁, _, (ho 1 (by decide)).trans ht₄, (hr 1 (by decide)).trans ((hr₃ 1 (by decide)).trans hend₁)⟩,
    ⟨past₂, _, hidle, hend₂, "15@lid", _, List.mem_singleton_self _, List.mem_singleton_self _⟩,
    watermarks_monotone before after⟩

/-- Two checks read and write both messages between the query and the write of a third. -/
theorem watermark_falls_of_sampleChecking :
    ¬ ∀ s (p q : Checking) ds es, Exec (Checking.Step noMatch) ⟨s, fun _ => none⟩ ds p →
      Exec (Checking.Step noMatch) p es q → p.Onward q := by
  intro hall
  obtain ⟨ds, p, past, slow, hworld, hthread, hothers, -⟩ := sampleCheck_ready "15@lid"
    (p := sampleChecking) (i := 0) (m := sampleInbound "M1" 1000) rfl rfl sampleFirst
  obtain ⟨ds', q, past', first, -, hfirst, hothers'⟩ := sampleCheck_run "15@lid"
    (p := p) (i := 1) (m := sampleInbound "M1" 1000) (hothers 1 (by decide))
    (by rw [hworld]; rfl) (by rw [hworld]; exact sampleFirst)
  obtain ⟨ds'', r, past'', second, -, hsecond, hothers''⟩ := sampleCheck_run "15@lid"
    (p := q) (i := 2) (m := sampleInbound "M2" 2000)
    ((hothers' 2 (by decide)).trans (hothers 2 (by decide)))
    (by rw [hfirst, hworld]; rfl) (by rw [hfirst, hworld]; exact sampleSecond)
  have hslow := ((hothers'' 0 (by decide)).trans (hothers' 0 (by decide))).trans hthread
  have hwritten : TriggerAnswers noMatch r.world (.advanceWatermarks [("15@lid", 1000)])
      (.ok ()) (r.world.written [("15@lid", 1000)]) := .advanceWatermarks
  have hsteps : Exec (Checking.Step noMatch) sampleChecking _ r :=
    ((slow.append first).append second).mono (P := fun _ => True) trivial
      fun _ _ _ _ hstep => ⟨trivial, hstep.1⟩
  have hreached : r.world.Reached "15@lid" 2000 :=
    ⟨⟨"15@lid", 2000⟩, by rw [hsecond]; exact lookup_written_of_mem (by decide) (by decide), le_refl _⟩
  obtain ⟨row, hrow, hts⟩ := (hall _ r _ _ _ hsteps (.single (.ask hslow (.ask hwritten)))).1 _ _ hreached
  have hlookup : (r.world.written [("15@lid", 1000)]).watermarks.lookup "15@lid" =
      some ⟨"15@lid", 1000⟩ := lookup_written_of_mem (by decide) (by decide)
  have hrow' : (r.world.written [("15@lid", 1000)]).watermarks.lookup "15@lid" = some row := hrow
  rw [hlookup] at hrow'
  cases hrow'
  exact absurd hts (by decide)

end Samples

end WhatsAppMcp.Bridge.Store
