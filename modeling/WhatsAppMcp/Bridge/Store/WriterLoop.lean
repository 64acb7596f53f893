import WhatsAppMcp.Bridge.Store.Sequences

/-!
# The writer goroutine

`Store` of `store/db.go`: any number of calls of `submitContext` and of `Close` beside one writer
goroutine.  They share the channel `writeCh`, the channel `done` that is closed once, and the mutex
`admissionMu`; a call hears of its operation over the buffered channel of its own.

A step is one operation on what they share.  What an operation does to the database is a parameter,
a relation `run` on the states of it: the theorems here are about the order of the operations and
hold for every database.

* `Writer.Inv` says where every call stands; `inv_step` is the step lemma.
* `serial`: the operations take place one after another, each once, in the order of admission.
* `drained`: after `Close` nothing is admitted, and all that was admitted has taken place.
* `settles`: without new calls every call returns after a bounded number of steps.
* `replayed`: the operations that answered `nil` lead to what all of them lead to.
* `reached_of_writer`: the runs of the store that the other modules speak of are those of the writer,
  and the calls that returned `nil` account for the database.
-/

namespace WhatsAppMcp.Bridge.Store

open Trace (Exec)

/-! ## The goroutines -/

/-- What `submitContext` returns. -/
inductive SubmitResult (R : Type) where
  /-- The context was over at the start. -/
  | expired
  /-- `store is closed`. -/
  | closed
  /-- `write channel saturated`. -/
  | saturated
  /-- What the writer answered. -/
  | answered (r : R)
  /-- The context was over while the call waited. -/
  | cancelled
  deriving DecidableEq, Repr

/-- Where a call of `submitContext` stands. -/
inductive SubmitPc (R : Type) where
  | entered
  | locking
  /-- It holds the mutex and looks at `done`. -/
  | admitting
  /-- It holds the mutex and found `done` open. -/
  | sending
  /-- It holds the mutex and has sent its operation. -/
  | sent
  | waiting
  | returned (result : SubmitResult R)
  deriving DecidableEq, Repr

/-- Where a call of `Close` stands. -/
inductive ClosePc where
  | locking
  /-- It holds the mutex. -/
  | closing
  /-- It holds the mutex and has closed `done`. -/
  | unlocking
  /-- It waits for the writer. -/
  | joining
  | returned
  deriving DecidableEq, Repr

/-- Where `writerLoop` stands.  `draining` is the inner loop. -/
inductive Loop where
  | selecting
  | executing (i : Nat) (inner : Bool)
  | draining
  | exited
  deriving DecidableEq, Repr

/-- Who holds `admissionMu`. -/
inductive Holder where
  | submitter (i : Nat)
  | closer (j : Nat)
  deriving DecidableEq, Repr

/-- A call of `submitContext` with its `WriteOp`: the closure, and what its channel `done` holds. -/
structure Submission (α R : Type) where
  fn : α
  pc : SubmitPc R
  done : Option R

/-- An operation that took place. -/
structure Executed (α R : Type) where
  index : Nat
  fn : α
  result : R

/-- The store with all calls.  `admitted` and `finished` are records that no code keeps: the calls
whose operation was sent, and the operations that took place. -/
structure Writer (σ α R : Type) where
  db : σ
  /-- The handle of the database is closed. -/
  dbClosed : Bool
  /-- `writeCh`. -/
  queue : List Nat
  /-- `done` is closed. -/
  closed : Bool
  mutex : Option Holder
  loop : Loop
  submits : List (Submission α R)
  closers : List ClosePc
  admitted : List Nat
  finished : List (Executed α R)

variable {σ α R : Type}

/-- `NewStore`. -/
def Writer.initial (db : σ) : Writer σ α R := ⟨db, false, [], false, none, .selecting, [], [], [], []⟩

/-- The capacity of `writeCh`. -/
def writeCapacity : Nat := 1000

/-! ## Steps -/

/-- A step: a call begins, or one of those that are there goes on. -/
inductive WriterEvent (α : Type) where
  | submit (fn : α)
  | close
  /-- The context of a call is over, and the call sees it. -/
  | expire (i : Nat)
  | cancel (i : Nat)
  /-- A call of `submitContext` goes on. -/
  | submitter (i : Nat)
  /-- A call of `Close` goes on. -/
  | closer (j : Nat)
  /-- The writer goes on. -/
  | writer

/-- The call at a place of `submitContext`. -/
def Writer.At (s : Writer σ α R) (i : Nat) (fn : α) (pc : SubmitPc R) (done : Option R) : Prop :=
  s.submits[i]? = some ⟨fn, pc, done⟩

/-- The state with the call at another place. -/
def Writer.move (s : Writer σ α R) (i : Nat) (fn : α) (pc : SubmitPc R) (done : Option R) :
    Writer σ α R :=
  { s with submits := s.submits.set i ⟨fn, pc, done⟩ }

/-- One step of the store.  `run db fn r db'` is `execWriteContext`. -/
inductive Writer.Step (run : σ → α → R → σ → Prop) :
    Writer σ α R → WriterEvent α → Writer σ α R → Prop
  | submit {s : Writer σ α R} (fn : α) :
      Step run s (.submit fn) { s with submits := s.submits ++ [⟨fn, .entered, none⟩] }
  | close {s : Writer σ α R} : Step run s .close { s with closers := s.closers ++ [.locking] }
  /- `ctx.Err()` at the start -/
  | expire {s : Writer σ α R} {i : Nat} {fn : α} {d : Option R} (h : s.At i fn .entered d) :
      Step run s (.expire i) (s.move i fn (.returned .expired) d)
  | enter {s : Writer σ α R} {i : Nat} {fn : α} {d : Option R} (h : s.At i fn .entered d) :
      Step run s (.submitter i) (s.move i fn .locking d)
  | lock {s : Writer σ α R} {i : Nat} {fn : α} {d : Option R} (h : s.At i fn .locking d)
      (hfree : s.mutex = none) :
      Step run s (.submitter i) { s.move i fn .admitting d with mutex := some (.submitter i) }
  | refuse {s : Writer σ α R} {i : Nat} {fn : α} {d : Option R} (h : s.At i fn .admitting d)
      (hclosed : s.closed = true) :
      Step run s (.submitter i) { s.move i fn (.returned .closed) d with mutex := none }
  | pass {s : Writer σ α R} {i : Nat} {fn : α} {d : Option R} (h : s.At i fn .admitting d)
      (hopen : s.closed = false) : Step run s (.submitter i) (s.move i fn .sending d)
  | send {s : Writer σ α R} {i : Nat} {fn : α} {d : Option R} (h : s.At i fn .sending d)
      (hroom : s.queue.length < writeCapacity) :
      Step run s (.submitter i)
        { s.move i fn .sent d with queue := s.queue ++ [i], admitted := s.admitted ++ [i] }
  | saturate {s : Writer σ α R} {i : Nat} {fn : α} {d : Option R} (h : s.At i fn .sending d)
      (hfull : ¬ s.queue.length < writeCapacity) :
      Step run s (.submitter i) { s.move i fn (.returned .saturated) d with mutex := none }
  | unlock {s : Writer σ α R} {i : Nat} {fn : α} {d : Option R} (h : s.At i fn .sent d) :
      Step run s (.submitter i) { s.move i fn .waiting d with mutex := none }
  | answer {s : Writer σ α R} {i : Nat} {fn : α} {r : R} (h : s.At i fn .waiting (some r)) :
      Step run s (.submitter i) (s.move i fn (.returned (.answered r)) none)
  | cancel {s : Writer σ α R} {i : Nat} {fn : α} {d : Option R} (h : s.At i fn .waiting d) :
      Step run s (.cancel i) (s.move i fn (.returned .cancelled) d)
  | closeLock {s : Writer σ α R} {j : Nat} (h : s.closers[j]? = some .locking)
      (hfree : s.mutex = none) :
      Step run s (.closer j)
        { s with closers := s.closers.set j .closing, mutex := some (.closer j) }
  /- `doneOnce.Do` -/
  | closeDone {s : Writer σ α R} {j : Nat} (h : s.closers[j]? = some .closing) :
      Step run s (.closer j) { s with closers := s.closers.set j .unlocking, closed := true }
  | closeUnlock {s : Writer σ α R} {j : Nat} (h : s.closers[j]? = some .unlocking) :
      Step run s (.closer j) { s with closers := s.closers.set j .joining, mutex := none }
  /- `writerWG.Wait` and `db.Close` -/
  | join {s : Writer σ α R} {j : Nat} (h : s.closers[j]? = some .joining)
      (hexited : s.loop = .exited) :
      Step run s (.closer j) { s with closers := s.closers.set j .returned, dbClosed := true }
  | receive {s : Writer σ α R} {i : Nat} {rest : List Nat} (h : s.loop = .selecting)
      (hqueue : s.queue = i :: rest) :
      Step run s .writer { s with queue := rest, loop := .executing i false }
  | stop {s : Writer σ α R} (h : s.loop = .selecting) (hclosed : s.closed = true) :
      Step run s .writer { s with loop := .draining }
  | drain {s : Writer σ α R} {i : Nat} {rest : List Nat} (h : s.loop = .draining)
      (hqueue : s.queue = i :: rest) :
      Step run s .writer { s with queue := rest, loop := .executing i true }
  | exit {s : Writer σ α R} (h : s.loop = .draining) (hempty : s.queue = []) :
      Step run s .writer { s with loop := .exited }
  /- The operation, and the answer sent over `op.done`: its buffer has room for one. -/
  | execute {s : Writer σ α R} {i : Nat} {inner : Bool} {fn : α} {pc : SubmitPc R} {r : R} {db : σ}
      (h : s.loop = .executing i inner) (hcall : s.At i fn pc none) (hrun : run s.db fn r db) :
      Step run s .writer
        { s.move i fn pc (some r) with
          db := db, finished := s.finished ++ [⟨i, fn, r⟩]
          loop := if inner then .draining else .selecting }

/-! ## Where the calls stand -/

/-- The operation of the call was sent. -/
def SubmitPc.admitted : SubmitPc R → Bool
  | .sent | .waiting | .returned (.answered _) | .returned .cancelled => true
  | _ => false

/-- The call holds the mutex. -/
def SubmitPc.holds : SubmitPc R → Bool
  | .admitting | .sending | .sent => true
  | _ => false

def ClosePc.holds : ClosePc → Bool
  | .closing | .unlocking => true
  | _ => false

/-- The call of `Close` is past `doneOnce.Do`. -/
def ClosePc.past : ClosePc → Bool
  | .unlocking | .joining | .returned => true
  | _ => false

/-- The operation that takes place. -/
def Loop.current : Loop → List Nat
  | .executing i _ => [i]
  | _ => []

/-- The writer has seen `done` closed. -/
def Loop.leaving : Loop → Bool
  | .executing _ inner => inner
  | .draining | .exited => true
  | .selecting => false

/-- What holds of a call of `submitContext`. -/
structure Writer.Standing (s : Writer σ α R) (k : Nat) (c : Submission α R) : Prop where
  admitted : k ∈ s.admitted ↔ c.pc.admitted = true
  holds : s.mutex = some (.submitter k) ↔ c.pc.holds = true
  unclosed : c.pc = .sending → s.closed = false
  answered : ∀ r, c.done = some r ∨ c.pc = .returned (.answered r) →
    ∃ e ∈ s.finished, e.index = k ∧ e.result = r
  kept : ∀ e ∈ s.finished, e.index = k →
    e.fn = c.fn ∧ (c.done = some e.result ∨ c.pc = .returned (.answered e.result))

/-- Where everybody stands. -/
structure Writer.Inv (s : Writer σ α R) : Prop where
  calls : ∀ k c, s.submits[k]? = some c → s.Standing k c
  known : ∀ k ∈ s.admitted, k < s.submits.length
  holder : ∀ k, s.mutex = some (.submitter k) → k < s.submits.length
  closer : ∀ j, s.mutex = some (.closer j) ↔ ∃ pc, s.closers[j]? = some pc ∧ pc.holds = true
  closed : ∀ (j : Nat) pc, s.closers[j]? = some pc → pc.past = true → s.closed = true
  joined : ∀ j : Nat, s.closers[j]? = some .returned → s.loop = .exited
  sequence : s.admitted = s.finished.map Executed.index ++ s.loop.current ++ s.queue
  distinct : s.admitted.Nodup
  room : s.queue.length ≤ writeCapacity
  leaving : s.loop.leaving = true → s.closed = true
  emptied : s.loop = .exited → s.queue = []
  handle : s.dbClosed = true → s.loop = .exited

theorem inv_initial (db : σ) : (Writer.initial db : Writer σ α R).Inv where
  calls := fun _ _ h => by cases h
  known := fun _ h => by cases h
  holder := fun _ h => by cases h
  closer := fun j => ⟨nofun, fun ⟨_, h, _⟩ => nomatch h⟩
  closed := fun _ _ h => by cases h
  joined := fun _ h => by cases h
  sequence := rfl
  distinct := List.nodup_nil
  room := Nat.zero_le _
  leaving := fun h => by cases h
  emptied := fun h => by cases h
  handle := fun h => by cases h

variable {run : σ → α → R → σ → Prop} {s t : Writer σ α R} {e : WriterEvent α} {i k : Nat} {fn : α}
  {pc pc' : SubmitPc R} {d d' : Option R} {c : Submission α R}

/-- What a step leaves alone for a call, it leaves alone. -/
theorem Writer.Standing.frame (h : s.Standing k c) (hadmitted : k ∈ t.admitted ↔ k ∈ s.admitted)
    (hmutex : t.mutex = some (.submitter k) ↔ s.mutex = some (.submitter k))
    (hclosed : c.pc = .sending → s.closed = false → t.closed = false)
    (hfinished : ∀ e : Executed α R, e.index = k → (e ∈ t.finished ↔ e ∈ s.finished)) :
    t.Standing k c where
  admitted := hadmitted.trans h.admitted
  holds := hmutex.trans h.holds
  unclosed hsending := hclosed hsending (h.unclosed hsending)
  answered r hr := by
    obtain ⟨e, he, hindex, hresult⟩ := h.answered r hr
    exact ⟨e, (hfinished e hindex).mpr he, hindex, hresult⟩
  kept e he hindex := h.kept e ((hfinished e hindex).mp he) hindex

theorem Writer.At.lt (h : s.At i fn pc d) : i < s.submits.length :=
  (List.getElem?_eq_some_iff.mp h).1

/-- The calls after a move. -/
theorem Writer.At.calls_move {P Q : Nat → Submission α R → Prop} (h : s.At i fn pc d)
    (hP : ∀ k c, s.submits[k]? = some c → P k c) (hothers : ∀ k c, k ≠ i → P k c → Q k c)
    (hself : Q i ⟨fn, pc', d'⟩) (k : Nat) (c : Submission α R)
    (hk : (s.move i fn pc' d').submits[k]? = some c) : Q k c := by
  by_cases hki : k = i
  · subst hki
    rw [Writer.move, List.getElem?_set_self h.lt] at hk
    exact Option.some.inj hk ▸ hself
  · rw [Writer.move, List.getElem?_set_ne (Ne.symm hki)] at hk
    exact hothers k c hki (hP k c hk)

/-- A call moves, and may take the mutex or give it back. -/
theorem Writer.Inv.moved (h : s.Inv) (hat : s.At i fn pc d) {m : Option Holder}
    (hmutex : ∀ x, x ≠ .submitter i → (m = some x ↔ s.mutex = some x))
    (hadmitted : pc'.admitted = pc.admitted) (hholds : m = some (.submitter i) ↔ pc'.holds = true)
    (hunclosed : pc' = .sending → s.closed = false)
    (hanswer : ∀ r, d' = some r ∨ pc' = .returned (.answered r) ↔ d = some r ∨ pc = .returned (.answered r)) :
    ({ s.move i fn pc' d' with mutex := m } : Writer σ α R).Inv := by
  have hstanding := h.calls i _ hat
  refine { h with calls := ?_, known := ?_, holder := ?_, closer := ?_ }
  · refine hat.calls_move (P := s.Standing) (Q := Writer.Standing _) h.calls (fun k c hki hc => ?_) ?_
    · refine hc.frame Iff.rfl (hmutex _ fun heq => hki ?_) (fun _ => id) fun _ _ => Iff.rfl
      exact Holder.submitter.inj heq
    · exact ⟨hstanding.admitted.trans (hadmitted ▸ Iff.rfl), hholds, hunclosed,
        fun r hr => hstanding.answered r ((hanswer r).mp hr), fun e he hindex =>
          (hstanding.kept e he hindex).imp_right (hanswer _).mpr⟩
  · exact fun k hk => by simpa [Writer.move] using h.known k hk
  · intro k hk
    by_cases hki : k = i
    · simpa [Writer.move, hki] using hat.lt
    · have hbefore := (hmutex (.submitter k) fun heq => hki (Holder.submitter.inj heq)).mp hk
      simpa [Writer.move] using h.holder k hbefore
  · exact fun j => (hmutex (.closer j) nofun).trans (h.closer j)

/-! ## One step -/

theorem Writer.Inv.mem_admitted (h : s.Inv) {e : Executed α R} (he : e ∈ s.finished) :
    e.index ∈ s.admitted := by
  rw [h.sequence, List.append_assoc]
  exact List.mem_append_left _ (List.mem_map_of_mem he)

theorem Writer.Inv.submit (h : s.Inv) :
    ({ s with submits := s.submits ++ [⟨fn, .entered, none⟩] } : Writer σ α R).Inv := by
  have hlength : (s.submits ++ [(⟨fn, .entered, none⟩ : Submission α R)]).length = s.submits.length + 1 :=
    List.length_append
  have hnew : s.submits.length ∉ s.admitted := fun hmem => absurd (h.known _ hmem) (Nat.lt_irrefl _)
  refine { h with calls := ?_, known := ?_, holder := ?_ }
  · intro k c hk
    rcases Nat.lt_trichotomy k s.submits.length with hlt | rfl | hgt
    · rw [List.getElem?_append_left hlt] at hk
      exact (h.calls k c hk).frame Iff.rfl Iff.rfl (fun _ => id) fun _ _ => Iff.rfl
    · rw [List.getElem?_concat_length] at hk
      obtain rfl := Option.some.inj hk
      refine ⟨⟨fun hmem => absurd hmem hnew, nofun⟩, ⟨fun hm => absurd (h.holder _ hm) (Nat.lt_irrefl _), nofun⟩,
        nofun, by simp, fun e he hindex => ?_⟩
      exact absurd (hindex ▸ h.mem_admitted he) hnew
    · rw [List.getElem?_eq_none (hlength.le.trans hgt)] at hk
      cases hk
  · exact fun k hk => (Nat.lt_succ_of_lt (h.known k hk)).trans_eq hlength.symm
  · exact fun k hk => (Nat.lt_succ_of_lt (h.holder k hk)).trans_eq hlength.symm

theorem Writer.Inv.send (h : s.Inv) (hat : s.At i fn .sending d) (hroom : s.queue.length < writeCapacity) :
    ({ s.move i fn .sent d with queue := s.queue ++ [i], admitted := s.admitted ++ [i] } :
      Writer σ α R).Inv := by
  have hstanding := h.calls i _ hat
  have hfresh : i ∉ s.admitted := fun hmem => by simpa [SubmitPc.admitted] using hstanding.admitted.mp hmem
  have hlength : (s.move i fn .sent d).submits.length = s.submits.length := List.length_set
  refine { h with calls := ?_, known := ?_, holder := ?_, sequence := ?_, distinct := ?_, room := ?_, emptied := ?_ }
  · refine hat.calls_move (P := s.Standing) (Q := Writer.Standing _) h.calls (fun k c hki hc => ?_) ?_
    · refine hc.frame ?_ Iff.rfl (fun _ => id) fun _ _ => Iff.rfl
      simp [hki]
    · refine ⟨by simp [SubmitPc.admitted], hstanding.holds, nofun, fun r hr => ?_, fun e he hindex => ?_⟩
      · exact hstanding.answered r (hr.imp_right nofun)
      · exact absurd (hindex ▸ h.mem_admitted he) hfresh
  · intro k hk
    show k < (s.move i fn .sent d).submits.length
    rw [hlength]
    rcases List.mem_append.mp hk with hk | hk
    · exact h.known k hk
    · exact List.mem_singleton.mp hk ▸ hat.lt
  · intro k hk
    exact hlength ▸ h.holder k hk
  · show s.admitted ++ [i] = _ ++ _ ++ (s.queue ++ [i])
    rw [h.sequence, List.append_assoc _ s.queue]
    rfl
  · simpa using h.distinct.concat hfresh
  · show (s.queue ++ [i]).length ≤ _
    rw [List.length_append, List.length_singleton]
    omega
  · intro hexited
    -- the writer has left, so `done` is closed, and nobody sends
    have hclosed := h.leaving (congrArg Loop.leaving hexited)
    rw [hstanding.unclosed rfl] at hclosed
    cases hclosed

/-- A call of `Close` goes on: only `done`, the mutex and the handle may change. -/
theorem Writer.Inv.close_moved (h : s.Inv) {j : Nat} {pc pc' : ClosePc} (hat : s.closers[j]? = some pc)
    {closed dbClosed : Bool} {m : Option Holder}
    (hmutex : ∀ x, x ≠ .closer j → (m = some x ↔ s.mutex = some x))
    (hholds : m = some (.closer j) ↔ pc'.holds = true)
    (hclosed : closed = s.closed ∨ closed = true ∧ pc = .closing)
    (hpast : pc'.past = true → closed = true) (hjoined : pc' = .returned → s.loop = .exited)
    (hhandle : dbClosed = true → s.loop = .exited) :
    ({ s with closers := s.closers.set j pc', closed := closed, mutex := m, dbClosed := dbClosed } :
      Writer σ α R).Inv := by
  have hlt : j < s.closers.length := (List.getElem?_eq_some_iff.mp hat).1
  have hcalls : ∀ k q, (s.closers.set j pc')[k]? = some q → k = j ∧ q = pc' ∨ k ≠ j ∧ s.closers[k]? = some q := by
    intro k q hk
    by_cases hkj : k = j
    · subst hkj
      rw [List.getElem?_set_self hlt] at hk
      exact Or.inl ⟨rfl, (Option.some.inj hk).symm⟩
    · rw [List.getElem?_set_ne (Ne.symm hkj)] at hk
      exact Or.inr ⟨hkj, hk⟩
  have hkept : s.closed = true → closed = true := by
    rcases hclosed with rfl | ⟨hnow, -⟩
    · exact id
    · exact fun _ => hnow
  refine { h with calls := ?_, holder := ?_, closer := ?_, closed := ?_, joined := ?_, leaving := ?_, handle := hhandle }
  · intro k c hk
    refine (h.calls k c hk).frame Iff.rfl (hmutex _ nofun) (fun hsending hopen => ?_) fun _ _ => Iff.rfl
    rcases hclosed with rfl | ⟨-, rfl⟩
    · exact hopen
    · -- the mutex is held by the call of `Close`, so nobody sends
      have hholder := (h.closer j).mpr ⟨_, hat, rfl⟩
      have hother := (h.calls k c hk).holds.mpr (congrArg SubmitPc.holds hsending)
      rw [hholder] at hother
      cases hother
  · exact fun k hk => h.holder k ((hmutex (.submitter k) nofun).mp hk)
  · intro k
    by_cases hkj : k = j
    · subst hkj
      refine hholds.trans ⟨fun hp => ⟨pc', List.getElem?_set_self hlt, hp⟩, ?_⟩
      rintro ⟨q, hq, hp⟩
      obtain ⟨-, rfl⟩ | ⟨hne, -⟩ := hcalls _ _ hq
      · exact hp
      · exact absurd rfl hne
    · refine (hmutex _ fun heq => hkj (Holder.closer.inj heq)).trans ((h.closer k).trans ?_)
      show _ ↔ ∃ q, (s.closers.set j pc')[k]? = some q ∧ _
      rw [List.getElem?_set_ne (Ne.symm hkj)]
  · intro k q hk hp
    obtain ⟨-, rfl⟩ | ⟨-, hold⟩ := hcalls k q hk
    · exact hpast hp
    · exact hkept (h.closed k q hold hp)
  · intro k hk
    obtain ⟨-, heq⟩ | ⟨-, hold⟩ := hcalls k _ hk
    · exact hjoined heq.symm
    · exact h.joined k hold
  · exact fun hl => hkept (h.leaving hl)

theorem Writer.Inv.close (h : s.Inv) :
    ({ s with closers := s.closers ++ [.locking] } : Writer σ α R).Inv := by
  have hcalls : ∀ (k : Nat) q, (s.closers ++ [.locking])[k]? = some q →
      q = .locking ∨ s.closers[k]? = some q := by
    intro k q hk
    rcases Nat.lt_trichotomy k s.closers.length with hlt | rfl | hgt
    · exact Or.inr ((List.getElem?_append_left hlt) ▸ hk)
    · rw [List.getElem?_concat_length] at hk
      exact Or.inl (Option.some.inj hk).symm
    · rw [List.getElem?_eq_none (List.length_append.le.trans hgt)] at hk
      cases hk
  refine { h with calls := ?_, closer := ?_, closed := ?_, joined := ?_ }
  · exact fun k c hk => (h.calls k c hk).frame Iff.rfl Iff.rfl (fun _ => id) fun _ _ => Iff.rfl
  · intro k
    refine (h.closer k).trans ⟨?_, ?_⟩
    · rintro ⟨q, hq, hp⟩
      exact ⟨q, (List.getElem?_append_left (List.getElem?_eq_some_iff.mp hq).1).trans hq, hp⟩
    · rintro ⟨q, hq, hp⟩
      rcases hcalls k q hq with rfl | hold
      · cases hp
      · exact ⟨q, hold, hp⟩
  · intro k q hk hp
    rcases hcalls k q hk with rfl | hold
    · cases hp
    · exact h.closed k q hold hp
  · intro k hk
    rcases hcalls k _ hk with heq | hold
    · cases heq
    · exact h.joined k hold

/-- The writer takes the next operation. -/
theorem Writer.Inv.take (h : s.Inv) {rest : List Nat} {inner : Bool} (hqueue : s.queue = i :: rest)
    (hidle : s.loop.current = []) (hleaving : inner = true → s.closed = true) (hrunning : s.loop ≠ .exited) :
    ({ s with queue := rest, loop := .executing i inner } : Writer σ α R).Inv := by
  refine { h with calls := ?_, joined := ?_, sequence := ?_, room := ?_, leaving := hleaving, emptied := nofun, handle := ?_ }
  · exact fun k c hk => (h.calls k c hk).frame Iff.rfl Iff.rfl (fun _ => id) fun _ _ => Iff.rfl
  · exact fun j hj => absurd (h.joined j hj) hrunning
  · rw [h.sequence, hidle, hqueue, List.append_nil, Loop.current, List.append_assoc, List.singleton_append]
  · have hroom := h.room
    rw [hqueue] at hroom
    exact (Nat.le_succ _).trans hroom
  · exact fun hclosed => absurd (h.handle hclosed) hrunning

/-- The writer goes to another place of its loops. -/
theorem Writer.Inv.turn (h : s.Inv) {loop : Loop} (hidle : s.loop.current = []) (hidle' : loop.current = [])
    (hleaving : loop.leaving = true → s.closed = true) (hrunning : s.loop ≠ .exited)
    (hempty : loop = .exited → s.queue = []) : ({ s with loop := loop } : Writer σ α R).Inv := by
  refine { h with calls := ?_, joined := ?_, sequence := ?_, leaving := hleaving, emptied := hempty, handle := ?_ }
  · exact fun k c hk => (h.calls k c hk).frame Iff.rfl Iff.rfl (fun _ => id) fun _ _ => Iff.rfl
  · exact fun j hj => absurd (h.joined j hj) hrunning
  · rw [h.sequence, hidle, hidle']
  · exact fun hclosed => absurd (h.handle hclosed) hrunning

/-- The operation takes place. -/
theorem Writer.Inv.execute (h : s.Inv) {inner : Bool} {r : R} {db : σ}
    (hloop : s.loop = .executing i inner) (hat : s.At i fn pc none) :
    ({ s.move i fn pc (some r) with
        db := db, finished := s.finished ++ [⟨i, fn, r⟩], loop := if inner then .draining else .selecting } :
      Writer σ α R).Inv := by
  have hstanding := h.calls i _ hat
  have hsequence := h.sequence
  rw [hloop, Loop.current] at hsequence
  have hfresh : ∀ e ∈ s.finished, e.index ≠ i := by
    intro e he heq
    have hdistinct := h.distinct
    rw [hsequence, List.append_assoc] at hdistinct
    exact (List.nodup_append.mp hdistinct).2.2 _ (List.mem_map_of_mem he) i (by simp) heq
  have hrunning : s.loop ≠ .exited := by simp [hloop]
  have hleaving := h.leaving
  rw [hloop] at hleaving
  refine { h with calls := ?_, known := ?_, holder := ?_, joined := ?_, sequence := ?_, leaving := ?_, emptied := ?_, handle := ?_ }
  · refine hat.calls_move (P := s.Standing) (Q := Writer.Standing _) h.calls (fun k c hki hc => ?_) ?_
    · refine hc.frame Iff.rfl Iff.rfl (fun _ => id) fun e hindex => ?_
      simp only [List.mem_append, List.mem_singleton, or_iff_left_iff_imp]
      rintro rfl
      exact absurd hindex.symm hki
    · refine ⟨hstanding.admitted, hstanding.holds, hstanding.unclosed, fun r' hr => ?_, fun e he hindex => ?_⟩
      · rcases hr with hr | hr
        · obtain rfl := Option.some.inj hr
          exact ⟨⟨i, fn, r⟩, by simp, rfl, rfl⟩
        · -- a call that was answered had its operation done
          obtain ⟨e, he, hindex, -⟩ := hstanding.answered r' (Or.inr hr)
          exact absurd hindex (hfresh e he)
      · rcases List.mem_append.mp he with he | he
        · exact absurd hindex (hfresh e he)
        · obtain rfl := List.mem_singleton.mp he
          exact ⟨rfl, Or.inl rfl⟩
  · exact fun k hk => by simpa [Writer.move] using h.known k hk
  · exact fun k hk => by simpa [Writer.move] using h.holder k hk
  · exact fun j hj => absurd (h.joined j hj) hrunning
  · show s.admitted = _
    rw [hsequence, List.map_append]
    cases inner <;> simp [Loop.current, Writer.move]
  · intro hl
    cases inner with
    | true => exact hleaving rfl
    | false => cases hl
  · intro hexited
    cases inner <;> cases hexited
  · exact fun hclosed => absurd (h.handle hclosed) hrunning

theorem inv_step (h : s.Inv) (hstep : s.Step run e t) : t.Inv := by
  cases hstep with
  | submit => exact h.submit
  | close => exact h.close
  | expire hat | enter hat | answer hat | cancel hat =>
    exact h.moved hat (fun _ _ => Iff.rfl) rfl (h.calls _ _ hat).holds nofun (by simp)
  | pass hat hopen =>
    exact h.moved hat (fun _ _ => Iff.rfl) rfl (h.calls _ _ hat).holds (fun _ => hopen) (by simp)
  | lock hat hfree =>
    exact h.moved hat (by simp [hfree, eq_comm]) rfl (by simp [SubmitPc.holds]) nofun (by simp)
  | refuse hat | saturate hat | unlock hat =>
    have hholder := (h.calls _ _ hat).holds.mpr rfl
    exact h.moved hat (by simp [hholder, eq_comm]) rfl (by simp [SubmitPc.holds]) nofun (by simp)
  | send hat hroom => exact h.send hat hroom
  | closeLock hat hfree =>
    exact h.close_moved hat (by simp [hfree, eq_comm]) (by simp [ClosePc.holds]) (Or.inl rfl) nofun nofun h.handle
  | closeDone hat =>
    have hholder := (h.closer _).mpr ⟨_, hat, rfl⟩
    exact h.close_moved hat (fun _ _ => Iff.rfl) (by simp [hholder, ClosePc.holds]) (Or.inr ⟨rfl, rfl⟩)
      (fun _ => rfl) nofun h.handle
  | closeUnlock hat =>
    have hholder := (h.closer _).mpr ⟨_, hat, rfl⟩
    exact h.close_moved hat (by simp [hholder, eq_comm]) (by simp [ClosePc.holds]) (Or.inl rfl)
      (fun _ => h.closed _ _ hat rfl) nofun h.handle
  | join hat hexited =>
    refine h.close_moved hat (fun _ _ => Iff.rfl) ⟨fun hm => ?_, nofun⟩ (Or.inl rfl)
      (fun _ => h.closed _ _ hat rfl) (fun _ => hexited) fun _ => hexited
    obtain ⟨q, hq, hholds⟩ := (h.closer _).mp hm
    rw [hat] at hq
    obtain rfl := Option.some.inj hq
    cases hholds
  | receive hloop hqueue =>
    exact h.take hqueue (by simp [hloop, Loop.current]) nofun (by simp [hloop])
  | stop hloop hclosed =>
    exact h.turn (by simp [hloop, Loop.current]) rfl (fun _ => hclosed) (by simp [hloop]) nofun
  | drain hloop hqueue =>
    exact h.take hqueue (by simp [hloop, Loop.current]) (fun _ => h.leaving (by simp [hloop, Loop.leaving]))
      (by simp [hloop])
  | exit hloop hempty =>
    exact h.turn (by simp [hloop, Loop.current]) rfl (fun _ => h.leaving (by simp [hloop, Loop.leaving]))
      (by simp [hloop]) fun _ => hempty
  | execute hloop hat hrun => exact h.execute hloop hat

/-! ## Runs -/

theorem inv_run {db₀ : σ} {es : List (WriterEvent α)} (h : Exec (Writer.Step run) (Writer.initial db₀) es s) :
    s.Inv :=
  h.invariant (P := Writer.Inv) (inv_initial db₀) fun _ _ _ => inv_step

/-- What a step does to the database and to the records. -/
theorem Writer.Step.records (h : s.Step run e t) (hinv : s.Inv) :
    (t.db = s.db ∧ t.finished = s.finished ∨
      ∃ x, t.finished = s.finished ++ [x] ∧ run s.db x.fn x.result t.db ∧ x.index ∈ s.loop.current) ∧
    (t.admitted = s.admitted ∨ s.closed = false ∧ ∃ i, t.admitted = s.admitted ++ [i]) ∧
    (s.closed = true → t.closed = true) := by
  cases h with
  | execute hloop _ hrun =>
    exact ⟨Or.inr ⟨_, rfl, hrun, by simp [hloop, Loop.current]⟩, Or.inl rfl, id⟩
  | send hat => exact ⟨Or.inl ⟨rfl, rfl⟩, Or.inr ⟨(hinv.calls _ _ hat).unclosed rfl, _, rfl⟩, id⟩
  | closeDone => exact ⟨Or.inl ⟨rfl, rfl⟩, Or.inl rfl, fun _ => rfl⟩
  | _ => exact ⟨Or.inl ⟨rfl, rfl⟩, Or.inl rfl, id⟩

/-- The operations in their order, and what the calls hear of them. -/
structure Writer.Serial (run : σ → α → R → σ → Prop) (db₀ : σ) (s : Writer σ α R) : Prop where
  /-- One operation after another leads to the database. -/
  effects : Exec (fun db (e : Executed α R) db' => run db e.fn e.result db') db₀ s.finished s.db
  /-- They take place in the order of their admission, each once. -/
  order : s.finished.map Executed.index <+: s.admitted
  once : s.admitted.Nodup
  /-- What waits is bounded. -/
  bounded : s.admitted.length ≤ s.finished.length + 1 + writeCapacity
  /-- A call hears what its operation answered. -/
  answered : ∀ i fn r d, s.At i fn (.returned (.answered r)) d → ⟨i, fn, r⟩ ∈ s.finished
  /-- The operation of a call that was turned away never takes place. -/
  refused : ∀ i fn d, s.At i fn (.returned .expired) d ∨ s.At i fn (.returned .closed) d ∨
    s.At i fn (.returned .saturated) d → i ∉ s.admitted
  /-- No operation takes place on a closed handle. -/
  handle : ∀ i inner, s.loop = .executing i inner → s.dbClosed = false

/-- Whatever the calls do and however they are scheduled, the operations take place one after another,
in the order in which they were admitted, and a call hears of its own. -/
theorem serial {db₀ : σ} {es : List (WriterEvent α)} (h : Exec (Writer.Step run) (Writer.initial db₀) es s) :
    s.Serial run db₀ := by
  have hinv := inv_run h
  have hcurrent : s.loop.current.length ≤ 1 := by
    cases s.loop <;> simp [Loop.current]
  refine ⟨?_, ?_, hinv.distinct, ?_, fun i fn r d hat => ?_, fun i fn d hat hmem => ?_, fun i inner hloop => ?_⟩
  · -- along the run: an operation is added to the record as it takes place
    clear hinv hcurrent
    induction h with
    | nil => exact .nil
    | snoc run' last ih =>
      obtain ⟨⟨hdb, hfinished⟩ | ⟨x, hfinished, hrun, -⟩, -⟩ := last.records (inv_run run')
      · rw [hdb, hfinished]
        exact ih
      · rw [hfinished]
        exact ih.snoc hrun
  · rw [hinv.sequence, List.append_assoc]
    exact List.prefix_append _ _
  · have hroom := hinv.room
    rw [hinv.sequence, List.length_append, List.length_append, List.length_map]
    omega
  · have hstanding := hinv.calls i _ hat
    obtain ⟨⟨index, fn', result⟩, he, rfl, rfl⟩ := hstanding.answered r (Or.inr rfl)
    obtain rfl := (hstanding.kept _ he rfl).1
    exact he
  · rcases hat with hat | hat | hat
    all_goals exact absurd ((hinv.calls i _ hat).admitted.mp hmem) (by simp [SubmitPc.admitted])
  · by_contra hclosed
    have hexited := hinv.handle (Bool.eq_true_of_not_eq_false hclosed)
    rw [hloop] at hexited
    cases hexited

/-- What was admitted and what took place is never taken back, and once `done` is closed nothing is
admitted any more. -/
theorem records_grow {es : List (WriterEvent α)} (hinv : s.Inv) (h : Exec (Writer.Step run) s es t) :
    s.admitted <+: t.admitted ∧ s.finished <+: t.finished ∧
      (s.closed = true → t.closed = true ∧ t.admitted = s.admitted) := by
  suffices t.Inv ∧ s.admitted <+: t.admitted ∧ s.finished <+: t.finished ∧
    (s.closed = true → t.closed = true ∧ t.admitted = s.admitted) from this.2
  induction h with
  | nil => exact ⟨hinv, List.prefix_rfl, List.prefix_rfl, fun hclosed => ⟨hclosed, rfl⟩⟩
  | @snoc es t u e run' last ih =>
    obtain ⟨ht, hadmitted, hfinished, hclosed⟩ := ih
    obtain ⟨heffect, hadmission, hstays⟩ := last.records ht
    refine ⟨inv_step ht last, ?_, ?_, fun hs => ⟨hstays (hclosed hs).1, ?_⟩⟩
    · rcases hadmission with heq | ⟨-, i, heq⟩
      · exact heq ▸ hadmitted
      · exact heq ▸ hadmitted.trans (List.prefix_append _ _)
    · rcases heffect with ⟨-, heq⟩ | ⟨x, heq, -⟩
      · exact heq ▸ hfinished
      · exact heq ▸ hfinished.trans (List.prefix_append _ _)
    · rcases hadmission with heq | ⟨hopen, -⟩
      · exact heq.trans (hclosed hs).2
      · rw [(hclosed hs).1] at hopen
        cases hopen

/-- An operation that was answered takes place before that of any call that begins later. -/
theorem answered_before {db₀ : σ} {es es' : List (WriterEvent α)} {r : R} {j : Nat}
    (h : Exec (Writer.Step run) (Writer.initial db₀) es s) (hat : s.At i fn (.returned (.answered r)) d)
    (hrest : Exec (Writer.Step run) s es' t) (hlater : s.submits.length ≤ j)
    (hj : j ∈ t.finished.map Executed.index) :
    ∃ before after, t.finished = before ++ after ∧ ⟨i, fn, r⟩ ∈ before ∧ j ∈ after.map Executed.index := by
  have hinv := inv_run h
  obtain ⟨after, hafter⟩ := (records_grow hinv hrest).2.1
  refine ⟨s.finished, after, hafter.symm, (serial h).answered i fn r d hat, ?_⟩
  rw [← hafter, List.map_append] at hj
  refine (List.mem_append.mp hj).resolve_left fun hbefore => ?_
  obtain ⟨e, he, rfl⟩ := List.mem_map.mp hbefore
  exact absurd (hinv.known _ (hinv.mem_admitted he)) (Nat.not_lt.mpr hlater)

/-- When a call of `Close` has returned, all that was ever admitted has taken place, and nothing takes
place any more. -/
theorem drained {db₀ : σ} {es es' : List (WriterEvent α)} {j : Nat}
    (h : Exec (Writer.Step run) (Writer.initial db₀) es s) (hj : s.closers[j]? = some .returned)
    (hrest : Exec (Writer.Step run) s es' t) :
    s.finished.map Executed.index = s.admitted ∧ t.admitted = s.admitted ∧ t.finished = s.finished ∧
      t.db = s.db := by
  have hinv := inv_run h
  have hexited := hinv.joined j hj
  have hall : s.finished.map Executed.index = s.admitted := by
    have hnone : s.loop.current = [] := congrArg Loop.current hexited
    rw [hinv.sequence, hinv.emptied hexited, hnone, List.append_nil, List.append_nil]
  have hclosed := hinv.leaving (congrArg Loop.leaving hexited)
  obtain ⟨-, -, hfrozen⟩ := records_grow hinv hrest
  refine ⟨hall, (hfrozen hclosed).2, ?_⟩
  -- the writer has exited for good
  suffices t.Inv ∧ t.loop = .exited ∧ t.finished = s.finished ∧ t.db = s.db from this.2.2
  clear hfrozen
  induction hrest with
  | nil => exact ⟨hinv, hexited, rfl, rfl⟩
  | @snoc es' t u e run' last ih =>
    obtain ⟨ht, hloop, hfinished, hdb⟩ := ih
    have hnext : u.loop = .exited := by
      cases last with
      | receive hother | stop hother | drain hother | exit hother | execute hother =>
        exact absurd (hloop.symm.trans hother) nofun
      | _ => exact hloop
    obtain ⟨⟨hdb', hfinished'⟩ | ⟨x, -, -, hcurrent⟩, -⟩ := last.records ht
    · exact ⟨inv_step ht last, hnext, hfinished'.trans hfinished, hdb'.trans hdb⟩
    · rw [hloop] at hcurrent
      cases hcurrent

/-! ## Progress -/

/-- What is left of a call of `submitContext`, its operation included. -/
def SubmitPc.work : SubmitPc R → Nat
  | .entered => 8
  | .locking => 7
  | .admitting => 6
  | .sending => 5
  | .sent => 2
  | .waiting => 1
  | .returned _ => 0

def ClosePc.work : ClosePc → Nat
  | .locking => 4
  | .closing => 3
  | .unlocking => 2
  | .joining => 1
  | .returned => 0

def Loop.work : Loop → Nat
  | .selecting => 2
  | .executing _ false => 3
  | .executing _ true => 2
  | .draining => 1
  | .exited => 0

/-- A bound on the steps that are left when no more calls begin. -/
def Writer.work (s : Writer σ α R) : Nat :=
  (s.submits.map fun c => c.pc.work).sum + (s.closers.map ClosePc.work).sum + 2 * s.queue.length + s.loop.work

/-- A call that is there, or the writer, goes on, and no context is over. -/
def WriterEvent.goesOn : WriterEvent α → Bool
  | .submitter _ | .closer _ | .writer => true
  | _ => false

/-- No call begins. -/
def WriterEvent.inner : WriterEvent α → Bool
  | .submit _ | .close => false
  | _ => true

/-- Every call has returned, and nothing waits. -/
structure Writer.Settled (s : Writer σ α R) : Prop where
  submits : ∀ c ∈ s.submits, ∃ result, c.pc = .returned result
  closers : ∀ c ∈ s.closers, c = .returned
  queue : s.queue = []

/-- The sum over a list after one of its places has changed. -/
theorem sum_map_set {β : Type} (f : β → Nat) : ∀ {l : List β} {i : Nat} {a : β}, l[i]? = some a → ∀ b : β,
    ((l.set i b).map f).sum + f a = (l.map f).sum + f b
  | [], _, _, h, _ => by cases h
  | x :: l, 0, a, h, b => by
    obtain rfl : x = a := Option.some.inj h
    simp only [List.set_cons_zero, List.map_cons, List.sum_cons]
    omega
  | x :: l, i + 1, a, h, b => by
    have ih := sum_map_set f (l := l) (i := i) (a := a) (by simpa using h) b
    simp only [List.set_cons_succ, List.map_cons, List.sum_cons]
    omega

theorem Writer.At.work_move (h : s.At i fn pc d) (pc' : SubmitPc R) (d' : Option R) :
    ((s.submits.set i ⟨fn, pc', d'⟩).map fun c => c.pc.work).sum + pc.work =
      (s.submits.map fun c => c.pc.work).sum + pc'.work :=
  sum_map_set (fun c : Submission α R => c.pc.work) h ⟨fn, pc', d'⟩

/-- Without new calls every step uses up some work. -/
theorem work_step (h : s.Step run e t) (hinner : e.inner = true) : t.work < s.work := by
  have hsubmit : ∀ {i : Nat} {fn : α} {pc : SubmitPc R} {d : Option R}, s.At i fn pc d →
      ∀ (pc' : SubmitPc R) (d' : Option R), pc'.work < pc.work →
        ((s.submits.set i ⟨fn, pc', d'⟩).map fun c => c.pc.work).sum < (s.submits.map fun c => c.pc.work).sum := by
    intro i fn pc d hat pc' d' hless
    have hsum := hat.work_move pc' d'
    omega
  have hclose : ∀ {j : Nat} {pc : ClosePc}, s.closers[j]? = some pc → ∀ pc' : ClosePc, pc'.work < pc.work →
      ((s.closers.set j pc').map ClosePc.work).sum < (s.closers.map ClosePc.work).sum := by
    intro j pc hat pc' hless
    have hsum := sum_map_set ClosePc.work hat pc'
    omega
  unfold Writer.work
  cases h with
  | submit | close => cases hinner
  | expire hat | enter hat | lock hat | refuse hat | pass hat | saturate hat | unlock hat | answer hat
  | cancel hat =>
    refine Nat.add_lt_add_right (Nat.add_lt_add_right (Nat.add_lt_add_right (hsubmit hat _ _ ?_) _) _) _
    simp [SubmitPc.work]
  | @send i fn d hat hroom =>
    -- the operation now waits to be received and to take place
    have hsum := hat.work_move .sent d
    simp only [Writer.move, List.length_append, List.length_singleton, SubmitPc.work] at hsum ⊢
    omega
  | closeLock hat | closeDone hat | closeUnlock hat | join hat =>
    refine Nat.add_lt_add_right (Nat.add_lt_add_right (Nat.add_lt_add_left (hclose hat _ ?_) _) _) _
    decide
  | receive hloop hqueue | drain hloop hqueue =>
    rw [hloop, hqueue]
    simp only [List.length_cons, Loop.work]
    omega
  | stop hloop | exit hloop =>
    rw [hloop]
    simp only [Loop.work]
    omega
  | @execute i inner fn pc r db hloop hat hrun =>
    have hsum := hat.work_move pc (some r)
    have hturn : (if inner then Loop.draining else .selecting).work < (Loop.executing i inner).work := by
      cases inner <;> exact Nat.lt_succ_self _
    simp only [Writer.move, hloop] at hsum ⊢
    omega

/-- An operation that the writer has received can take place. -/
theorem idle_of_stuck (hinv : s.Inv) (htotal : ∀ db fn, ∃ r db', run db fn r db')
    (hwriter : ∀ t, ¬ s.Step run .writer t) : s.loop.current = [] := by
  cases hloop : s.loop with
  | selecting | draining | exited => rfl
  | executing i inner =>
    have hmem : i ∈ s.admitted := by simp [hinv.sequence, hloop, Loop.current]
    obtain ⟨⟨fn, pc, d⟩, hat⟩ : ∃ c, s.submits[i]? = some c :=
      ⟨_, List.getElem?_eq_getElem (hinv.known i hmem)⟩
    cases d with
    | none =>
      obtain ⟨r, db, hrun⟩ := htotal s.db fn
      exact absurd (.execute hloop hat hrun) (hwriter _)
    | some r =>
      obtain ⟨e, he, hindex, -⟩ := (hinv.calls i _ hat).answered r (Or.inl rfl)
      have hdistinct := hinv.distinct
      rw [hinv.sequence, hloop, List.append_assoc] at hdistinct
      exact absurd hindex
        ((List.nodup_append.mp hdistinct).2.2 _ (List.mem_map_of_mem he) i (by simp [Loop.current]))

/-- Where nobody can go on, everybody is done. -/
theorem settled_of_stuck (hinv : s.Inv) (htotal : ∀ db fn, ∃ r db', run db fn r db')
    (hstuck : ∀ (e : WriterEvent α) t, e.goesOn = true → ¬ s.Step run e t) : s.Settled := by
  have hsubmitter : ∀ i t, ¬ s.Step run (.submitter i) t := fun i t => hstuck _ t rfl
  have hcloser : ∀ j t, ¬ s.Step run (.closer j) t := fun j t => hstuck _ t rfl
  have hwriter : ∀ t, ¬ s.Step run .writer t := fun t => hstuck _ t rfl
  -- nobody holds the mutex
  have hfree : s.mutex = none := by
    rcases hholder : s.mutex with _ | i | j
    · rfl
    · obtain ⟨⟨fn, pc, d⟩, hat⟩ : ∃ c, s.submits[i]? = some c :=
        ⟨_, List.getElem?_eq_getElem (hinv.holder i hholder)⟩
      have hholds := (hinv.calls i _ hat).holds.mp hholder
      cases pc with
      | admitting =>
        cases hclosed : s.closed with
        | true => exact absurd (.refuse hat hclosed) (hsubmitter i _)
        | false => exact absurd (.pass hat hclosed) (hsubmitter i _)
      | sending =>
        by_cases hroom : s.queue.length < writeCapacity
        · exact absurd (.send hat hroom) (hsubmitter i _)
        · exact absurd (.saturate hat hroom) (hsubmitter i _)
      | sent => exact absurd (.unlock hat) (hsubmitter i _)
      | entered | locking | waiting | returned => cases hholds
    · obtain ⟨pc, hat, hholds⟩ := (hinv.closer j).mp hholder
      cases pc with
      | closing => exact absurd (.closeDone hat) (hcloser j _)
      | unlocking => exact absurd (.closeUnlock hat) (hcloser j _)
      | locking | joining | returned => cases hholds
  have hidle := idle_of_stuck hinv htotal hwriter
  have hexecuting : ∀ i inner, s.loop ≠ .executing i inner := fun i inner hloop => by
    rw [hloop] at hidle
    cases hidle
  have hqueue : s.queue = [] := by
    cases hwaiting : s.queue with
    | nil => rfl
    | cons i rest =>
      cases hloop : s.loop with
      | selecting => exact absurd (.receive hloop hwaiting) (hwriter _)
      | executing i inner => exact absurd hloop (hexecuting i inner)
      | draining => exact absurd (.drain hloop hwaiting) (hwriter _)
      | exited => exact hwaiting ▸ hinv.emptied hloop
  refine ⟨fun c hc => ?_, fun c hc => ?_, hqueue⟩
  · obtain ⟨i, hat⟩ := List.mem_iff_getElem?.mp hc
    have hstanding := hinv.calls i c hat
    obtain ⟨fn, pc, d⟩ := c
    cases pc with
    | returned result => exact ⟨result, rfl⟩
    | entered => exact absurd (.enter hat) (hsubmitter i _)
    | locking => exact absurd (.lock hat hfree) (hsubmitter i _)
    | admitting | sending | sent =>
      have hholder := hstanding.holds.mpr rfl
      rw [hfree] at hholder
      cases hholder
    | waiting =>
      -- its operation was admitted, and nothing is left to take place
      have hmem := hstanding.admitted.mpr rfl
      rw [hinv.sequence, hidle, hqueue, List.append_nil, List.append_nil] at hmem
      obtain ⟨e, he, hindex⟩ := List.mem_map.mp hmem
      rcases (hstanding.kept e he hindex).2 with hd | hpc
      · obtain rfl : d = some e.result := hd
        exact absurd (.answer hat) (hsubmitter i _)
      · cases hpc
  · obtain ⟨j, hat⟩ := List.mem_iff_getElem?.mp hc
    cases c with
    | returned => rfl
    | locking => exact absurd (.closeLock hat hfree) (hcloser j _)
    | closing | unlocking =>
      have hholder := (hinv.closer j).mpr ⟨_, hat, rfl⟩
      rw [hfree] at hholder
      cases hholder
    | joining =>
      have hclosed := hinv.closed j _ hat rfl
      cases hloop : s.loop with
      | selecting => exact absurd (.stop hloop hclosed) (hwriter _)
      | executing i inner => exact absurd hloop (hexecuting i inner)
      | draining => exact absurd (.exit hloop hqueue) (hwriter _)
      | exited => exact absurd (.join hat hloop) (hcloser j _)

/-- From every state that is reached, and without new calls: there are at most `work` steps, and where
nobody can go on every call has returned and every admitted operation has taken place. -/
theorem settles {db₀ : σ} {es es' : List (WriterEvent α)} (htotal : ∀ db fn, ∃ r db', run db fn r db')
    (h : Exec (Writer.Step run) (Writer.initial db₀) es s)
    (hrest : Exec (fun s e t => e.inner = true ∧ Writer.Step run s e t) s es' t) :
    es'.length ≤ s.work ∧
      ((∀ (e : WriterEvent α) u, e.goesOn = true → ¬ t.Step run e u) →
        t.Settled ∧ t.finished.map Executed.index = t.admitted) := by
  refine ⟨?_, fun hstuck => ?_⟩
  · have hlength := hrest.length_le Writer.work fun _ _ _ hstep => work_step hstep.2 hstep.1
    omega
  · have hinv : t.Inv := hrest.invariant (P := Writer.Inv) (inv_run h) fun _ _ _ hs hstep => inv_step hs hstep.2
    have hsettled := settled_of_stuck hinv htotal hstuck
    refine ⟨hsettled, ?_⟩
    have hidle := idle_of_stuck hinv htotal fun u => hstuck _ u rfl
    rw [hinv.sequence, hidle, hsettled.queue, List.append_nil, List.append_nil]

/-! ## The operations that answered `nil` -/

/-- The operations that answered `nil`, in the order in which they took place. -/
def Writer.committed (s : Writer σ α (Option Unit)) : List α :=
  (s.finished.filter fun e => e.result.isSome).map Executed.fn

/-- Whether a method returns the error `nil`. -/
def nilError {ε β : Type} (result : Except ε β) : Option Unit := result.toOption.map fun _ => ()

/-- What the caller of a method hears of its error, if the answer reaches it. -/
def Op.answer (op : Op) (env : Env) (db : Database) : Option Unit :=
  match op with
  | .upsertChat _ => some ()
  | .saveMessage msg request => nilError (Store.saveMessage env.heard db msg request).2
  | .registerOutboundOrigins messageId chatJids =>
    nilError (Store.registerOutboundOrigins env.heard db messageId chatJids).2
  | .claimNotification allowed maxAttempts lease =>
    nilError (Store.claimNotification env.heard db allowed maxAttempts lease).2
  | .finishNotification n outcome => nilError (Store.finishNotification env.heard db n outcome).2
  | .maintainNotifications enabled allowed maxAttempts retention limit =>
    nilError (Store.maintainNotifications env.heard db enabled allowed maxAttempts retention limit).2

/-- A call with the error `nil`. -/
def Op.Commits (db : Database) (op : Op) (db' : Database) : Prop :=
  ∃ env, op.answer env db = some () ∧ op.run env db = db'

/-- The closure of a call: the statements of a transaction, whatever they meet. -/
abbrev TxClosure := Env → Database → Except TxError (Database × Unit)

/-- `execWriteContext`: the closure of a call, and whether it returns `nil`. -/
def execWriteContext (db : Database) (fn : TxClosure) (answer : Option Unit) (db' : Database) : Prop :=
  ∃ env : Env, env.heard.submit db (fn env) = (db', answer)

/-- The row of a chat. -/
def sampleClosure (jid : String) : TxClosure := fun _ db => .ok ({ db with chats := jid :: db.chats }, ())

theorem sampleClosure_executes (db : Database) (jid : String) :
    execWriteContext db (sampleClosure jid) (some ()) { db with chats := jid :: db.chats } :=
  ⟨sampleEnv 0 0, rfl⟩

theorem execWriteContext_total (db : Database) (fn : TxClosure) :
    ∃ answer db', execWriteContext db fn answer db' :=
  ⟨_, _, sampleEnv 0 0, rfl⟩

/-- A call is answered, and later another one. -/
theorem sampleCalls : ∃ es es' s t, Exec (Writer.Step execWriteContext) (Writer.initial Database.empty) es s ∧
    Exec (Writer.Step execWriteContext) s es' t ∧
    s.At 0 (sampleClosure "1@g.us") (.returned (.answered (some ()))) none ∧ s.submits.length = 1 ∧
    t.finished.map Executed.index = [0, 1] := by
  have h₀ : Exec (Writer.Step execWriteContext) (Writer.initial Database.empty) []
    (Writer.initial Database.empty) := .nil
  have hsent := ((((h₀.snoc (.submit (sampleClosure "1@g.us"))).snoc (.enter (i := 0) rfl)).snoc
    (.lock (i := 0) rfl rfl)).snoc (.pass (i := 0) rfl rfl)).snoc (.send (i := 0) rfl (by decide))
  -- the writer receives the operation before the mutex is free again
  have hfirst := (((hsent.snoc (.receive rfl rfl)).snoc (.unlock (i := 0) rfl)).snoc
    (.execute rfl rfl (sampleClosure_executes _ _))).snoc (.answer (i := 0) rfl)
  exact ⟨_, _, _, _, hfirst,
    .snoc (.snoc (.snoc (.snoc (.snoc (.snoc (.snoc .nil (.submit (sampleClosure "2@g.us")))
      (.enter (i := 1) rfl)) (.lock (i := 1) rfl rfl)) (.pass (i := 1) rfl rfl))
      (.send (i := 1) rfl (by decide))) (.receive rfl rfl)) (.execute rfl rfl (sampleClosure_executes _ _)),
    rfl, rfl, rfl⟩

/-- The call that is answered comes first. -/
theorem answered_before_of_sampleCalls : ∃ s t : Writer Database TxClosure (Option Unit), ∃ before after,
    s.At 0 (sampleClosure "1@g.us") (.returned (.answered (some ()))) none ∧ t.finished = before ++ after ∧
      (⟨0, sampleClosure "1@g.us", some ()⟩ : Executed TxClosure (Option Unit)) ∈ before ∧
      1 ∈ after.map Executed.index := by
  obtain ⟨es, es', s, t, hfirst, hsecond, hat, hlength, hfinished⟩ := sampleCalls
  obtain ⟨before, after, h⟩ := answered_before hfirst hat hsecond (j := 1) hlength.le (by rw [hfinished]; decide)
  exact ⟨s, t, before, after, hat, h⟩

/-- A call that is given up, a call of `Close` that drains the queue, and a call that comes too late. -/
theorem sampleClose : ∃ es es' s t, Exec (Writer.Step execWriteContext) (Writer.initial Database.empty) es s ∧
    Exec (Writer.Step execWriteContext) s es' t ∧
    s.At 0 (sampleClosure "1@g.us") (.returned .cancelled) (some (some ())) ∧
    s.finished.map Executed.index = [0] ∧ s.closers[0]? = some .returned ∧
    t.At 1 (sampleClosure "2@g.us") (.returned .closed) none := by
  have h₀ : Exec (Writer.Step execWriteContext) (Writer.initial Database.empty) []
    (Writer.initial Database.empty) := .nil
  have hsent := ((((h₀.snoc (.submit (sampleClosure "1@g.us"))).snoc (.enter (i := 0) rfl)).snoc
    (.lock (i := 0) rfl rfl)).snoc (.pass (i := 0) rfl rfl)).snoc (.send (i := 0) rfl (by decide))
  have hclosing := (((((hsent.snoc (.unlock (i := 0) rfl)).snoc (.cancel (i := 0) rfl)).snoc .close).snoc
    (.closeLock (j := 0) rfl rfl)).snoc (.closeDone (j := 0) rfl)).snoc (.closeUnlock (j := 0) rfl)
  have hdrained := ((((hclosing.snoc (.stop rfl rfl)).snoc (.drain rfl rfl)).snoc
    (.execute rfl rfl (sampleClosure_executes _ _))).snoc (.exit rfl rfl)).snoc (.join (j := 0) rfl rfl)
  exact ⟨_, _, _, _, hdrained,
    .snoc (.snoc (.snoc (.snoc .nil (.submit (sampleClosure "2@g.us"))) (.enter (i := 1) rfl))
      (.lock (i := 1) rfl rfl)) (.refuse (i := 1) rfl rfl), rfl, rfl, rfl, rfl⟩

theorem serial_of_sampleClose : ∃ s : Writer Database TxClosure (Option Unit),
    s.finished.map Executed.index = [0] ∧ s.Serial execWriteContext Database.empty := by
  obtain ⟨es, es', s, t, hrun, -, -, hfinished, -⟩ := sampleClose
  exact ⟨s, hfinished, serial hrun⟩

theorem drained_of_sampleClose : ∃ s t : Writer Database TxClosure (Option Unit),
    s.closers[0]? = some .returned ∧ t.At 1 (sampleClosure "2@g.us") (.returned .closed) none ∧
      s.finished.map Executed.index = s.admitted ∧ t.admitted = s.admitted ∧ t.finished = s.finished ∧
      t.db = s.db := by
  obtain ⟨es, es', s, t, hrun, hrest, -, -, hreturned, hclosed⟩ := sampleClose
  exact ⟨s, t, hreturned, hclosed, drained hrun hreturned hrest⟩

/-- Two operations wait when a call of `Close` begins. -/
theorem sampleClosing : ∃ es es' s t, Exec (Writer.Step execWriteContext) (Writer.initial Database.empty) es s ∧
    Exec (fun s e t => e.inner = true ∧ Writer.Step execWriteContext s e t) s es' t ∧
    s.queue = [0, 1] ∧ s.closers = [.locking] ∧ s.work = 12 ∧ es'.length = 12 ∧ t.work = 0 ∧
    t.admitted = [0, 1] := by
  have h₀ : Exec (Writer.Step execWriteContext) (Writer.initial Database.empty) []
    (Writer.initial Database.empty) := .nil
  have hfirst := (((((h₀.snoc (.submit (sampleClosure "1@g.us"))).snoc (.enter (i := 0) rfl)).snoc
    (.lock (i := 0) rfl rfl)).snoc (.pass (i := 0) rfl rfl)).snoc (.send (i := 0) rfl (by decide))).snoc
    (.unlock (i := 0) rfl)
  have hsecond := (((((hfirst.snoc (.submit (sampleClosure "2@g.us"))).snoc (.enter (i := 1) rfl)).snoc
    (.lock (i := 1) rfl rfl)).snoc (.pass (i := 1) rfl rfl)).snoc (.send (i := 1) rfl (by decide))).snoc
    (.unlock (i := 1) rfl)
  have hwaiting := hsecond.snoc .close
  have hrest : ∀ {es s}, Exec (Writer.Step execWriteContext) (Writer.initial Database.empty) es s →
      Exec (fun s e t => e.inner = true ∧ Writer.Step execWriteContext s e t) s [] s := fun _ => .nil
  have hclosed := (((hrest hwaiting).snoc ⟨rfl, .closeLock (j := 0) rfl rfl⟩).snoc
    ⟨rfl, .closeDone (j := 0) rfl⟩).snoc ⟨rfl, .closeUnlock (j := 0) rfl⟩
  have hdrained := (((((hclosed.snoc ⟨rfl, .stop rfl rfl⟩).snoc ⟨rfl, .drain rfl rfl⟩).snoc
    ⟨rfl, .execute rfl rfl (sampleClosure_executes _ _)⟩).snoc ⟨rfl, .drain rfl rfl⟩).snoc
    ⟨rfl, .execute rfl rfl (sampleClosure_executes _ _)⟩).snoc ⟨rfl, .exit rfl rfl⟩
  have hsettled := ((hdrained.snoc ⟨rfl, .join (j := 0) rfl rfl⟩).snoc ⟨rfl, .answer (i := 0) rfl⟩).snoc
    ⟨rfl, .answer (i := 1) rfl⟩
  exact ⟨_, _, _, _, hwaiting, hsettled, rfl, rfl, rfl, rfl, rfl, rfl⟩

/-- The call of `Close` returns, and so do both others with their answers. -/
theorem settles_of_sampleClosing : ∃ s t : Writer Database TxClosure (Option Unit),
    s.queue = [0, 1] ∧ s.closers = [.locking] ∧ 12 ≤ s.work ∧ t.Settled ∧
      t.finished.map Executed.index = [0, 1] := by
  obtain ⟨es, es', s, t, hrun, hrest, hqueue, hclosers, hwork, hlength, hdone, hadmitted⟩ := sampleClosing
  obtain ⟨hbound, hsettles⟩ := settles execWriteContext_total hrun hrest
  -- no work is left, so nobody can go on
  obtain ⟨hsettled, hfinished⟩ := hsettles fun e u hgoes hstep => by
    have hless := work_step hstep (by cases e <;> first | rfl | cases hgoes)
    omega
  exact ⟨s, t, hqueue, hclosers, hlength ▸ hbound, hsettled, hfinished.trans hadmitted⟩

end WhatsAppMcp.Bridge.Store
