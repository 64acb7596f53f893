import WhatsAppMcp.Controller.Redis.Effects
import WhatsAppMcp.Lib.Trace

/-!
# Runs of the session store

A run of the store is any sequence of script calls, by any clients, on any of
the configured chats, with any passage of the server clock in between.  A
script runs at one point of the sequence; its readings of the clock lie between
the time before it and the time after it.

`Call.Issued` is what the repository promises of the arguments it sends: the
chat is configured, `accept` gets the chat and the digest of its event, and
`native-journal-begin` gets an attempt that names the fences of its caller.

`Store.Step.cases_on_core` is the rule that later modules use.
-/

namespace WhatsAppMcp.Controller.Redis

open Trace (Exec)

variable {Fp : Type} [DecidableEq Fp]

/-! ## Calls -/

/-- One call of a script. -/
structure Call (Fp : Type) where
  chat : String
  op : Op Fp
  clk : Clock

/-- A call with its reply; `none` is a passage of time or a move that does not
reach the store. -/
abbrev Label (Fp : Type) := Option (Call Fp × Reply Fp)

/-- The fences that a `ClaimedWork` carries are the first four of its arguments. -/
def WorkArgs.OwnedBy (w : WorkArgs Fp) (o : Ownership) : Prop :=
  o.app.owner = w.appOwner ∧ o.app.epoch = w.appEpoch ∧
    o.chat.owner = w.chatOwner ∧ o.chat.epoch = w.chatEpoch

/-- What the repository promises of the arguments of a call. -/
def Call.Issued (chats : List String) (fingerprint : NotificationV2 → Fp) (c : Call Fp) : Prop :=
  c.chat ∈ chats ∧
    match c.op with
    | .accept _ event fp _ _ => c.chat = event.canonicalChatJid ∧ fp = fingerprint event
    | .nativeJournalBegin w _ record _ => w.OwnedBy record.state.ownership
    | _ => True

/-- The observed call of a label, with its chat. -/
def Label.observation (fingerprint : NotificationV2 → Fp) (l : Label Fp) :
    Option (String × Observation Fp) :=
  l.bind fun (c, r) => (observe fingerprint c.op r).map fun o => (c.chat, o)

/-- The observed calls of a run, in order. -/
def observed (fingerprint : NotificationV2 → Fp) (ls : List (Label Fp)) :
    List (String × Observation Fp) :=
  ls.filterMap (Label.observation fingerprint)

omit [DecidableEq Fp] in
@[simp] theorem Label.observation_none (fingerprint : NotificationV2 → Fp) :
    Label.observation fingerprint (none : Label Fp) = none := rfl

omit [DecidableEq Fp] in
@[simp] theorem Label.observation_some (fingerprint : NotificationV2 → Fp) (c : Call Fp)
    (r : Reply Fp) : Label.observation fingerprint (some (c, r) : Label Fp) =
      (observe fingerprint c.op r).map fun o => (c.chat, o) := rfl

omit [DecidableEq Fp] in
/-- The call behind a marked observation. -/
theorem Label.observation_bind {fingerprint : NotificationV2 → Fp} {α : Type}
    {mark : String × Observation Fp → Option α} {l : Label Fp} {a : α}
    (h : (Label.observation fingerprint l).bind mark = some a) :
    ∃ c r o, l = some (c, r) ∧ observe fingerprint c.op r = some o ∧ mark (c.chat, o) = some a := by
  obtain ⟨⟨chat, o⟩, hobs, hmark⟩ := Option.bind_eq_some_iff.mp h
  obtain ⟨⟨c, r⟩, rfl, hmap⟩ := Option.bind_eq_some_iff.mp hobs
  obtain ⟨o, hobs', heq⟩ := Option.map_eq_some_iff.mp hmap
  obtain ⟨rfl, rfl⟩ := Prod.mk.inj heq
  exact ⟨c, r, o, rfl, hobs', hmark⟩

/-! ## Steps -/

/-- One step of the store. -/
inductive Store.Step (chats : List String) (fingerprint : NotificationV2 → Fp) :
    Store Fp → Label Fp → Store Fp → Prop
  | call {s : Store Fp} {c : Call Fp} {r : Reply Fp} {k : Keys Fp} {time : Nat}
      (hissued : c.Issued chats fingerprint) (hstart : s.time ≤ c.clk.now 0)
      (hend : ∀ i, c.clk.now i ≤ time) (hrun : c.op.run c.clk (s.keys c.chat) = (r, k)) :
      Step chats fingerprint s (some (c, r)) (s.write c.chat k time)
  | tick {s : Store Fp} {time : Nat} (htime : s.time ≤ time) :
      Step chats fingerprint s none { s with time := time }

/-- The core of one chat's keys. -/
def Store.core (s : Store Fp) (chat : String) : Core Fp := (s.keys chat).core

omit [DecidableEq Fp] in
@[simp] theorem Store.write_core_self (s : Store Fp) (chat : String) (k : Keys Fp) (time : Nat) :
    (s.write chat k time).core chat = k.core := by
  simp [Store.core, Store.keys, Store.write]

omit [DecidableEq Fp] in
theorem Store.write_core_ne (s : Store Fp) {chat other : String} (k : Keys Fp) (time : Nat)
    (h : other ≠ chat) : (s.write chat k time).core other =
      { s.core other with app := k.app, identities := k.identities } := by
  simp [Store.core, Store.keys, Store.write, h, Keys.core]

omit [DecidableEq Fp] in
@[simp] theorem Store.core_at (s : Store Fp) (chat : String) (time : Nat) :
    ({ s with time := time } : Store Fp).core chat = s.core chat := rfl

/-- What a step does: the clock does not go back, and either nothing else moves
or a call has one of the effects on its chat, with the shared keys of that
effect in every other chat. -/
theorem Store.Step.cases_on_core {chats : List String} {fingerprint : NotificationV2 → Fp}
    {s t : Store Fp} {l : Label Fp} (h : Store.Step chats fingerprint s l t) :
    s.time ≤ t.time ∧
      ((l = none ∧ ∀ chat, t.core chat = s.core chat) ∨
        ∃ c r, l = some (c, r) ∧ c.Issued chats fingerprint ∧ s.time ≤ c.clk.now 0 ∧
          (∀ i, c.clk.now i ≤ t.time) ∧
          Effect fingerprint c.clk (s.keys c.chat) c.op r (t.core c.chat) ∧
          ∀ other, other ≠ c.chat → t.core other =
            { s.core other with
              app := (t.core c.chat).app, identities := (t.core c.chat).identities }) := by
  cases h with
  | @call c r k time hissued hstart hend hrun =>
    refine ⟨le_trans hstart (hend 0), Or.inr ⟨c, r, rfl, hissued, hstart, hend, ?_, ?_⟩⟩
    · rw [Store.write_core_self]
      exact run_effect fingerprint hrun
    · intro other hne
      rw [Store.write_core_self, Store.write_core_ne s k time hne]
      rfl
  | tick htime => exact ⟨htime, Or.inl ⟨rfl, fun _ => rfl⟩⟩

/-! ## Running calls -/

/-- Runs the calls one after another, each with the clock standing at its time. -/
def Store.drive (s : Store Fp) : List (String × Nat × Op Fp) → List (Label Fp) × Store Fp
  | [] => ([], s)
  | (chat, time, op) :: rest =>
    let answer := op.run (.frozen time) (s.keys chat)
    let (labels, t) := (s.write chat answer.2 time).drive rest
    (some (⟨chat, op, .frozen time⟩, answer.1) :: labels, t)

/-- The calls are issued in the order of their times, the first not before `time`. -/
def Driven (chats : List String) (fingerprint : NotificationV2 → Fp) :
    Nat → List (String × Nat × Op Fp) → Prop
  | _, [] => True
  | time, (chat, now, op) :: rest =>
    time ≤ now ∧ Call.Issued chats fingerprint ⟨chat, op, .frozen now⟩ ∧
      Driven chats fingerprint now rest

/-- Calls in the order of their times are a run of the store. -/
theorem drive_exec {chats : List String} {fingerprint : NotificationV2 → Fp} {s : Store Fp}
    {calls : List (String × Nat × Op Fp)} (h : Driven chats fingerprint s.time calls) :
    Exec (Store.Step chats fingerprint) s (s.drive calls).1 (s.drive calls).2 := by
  induction calls generalizing s with
  | nil => exact .nil
  | cons call rest ih =>
    obtain ⟨chat, now, op⟩ := call
    obtain ⟨htime, hissued, hrest⟩ := h
    have hstep : Store.Step chats fingerprint s
        (some (⟨chat, op, .frozen now⟩, (op.run (.frozen now) (s.keys chat)).1))
        (s.write chat (op.run (.frozen now) (s.keys chat)).2 now) :=
      .call hissued htime (fun _ => le_refl _) rfl
    exact (Exec.single hstep).append (ih hrest)

end WhatsAppMcp.Controller.Redis
