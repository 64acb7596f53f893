import WhatsAppMcp.Lib.Calls
import WhatsAppMcp.Controller.Redis.Accept

/-!
# What the controller asks of its stores

The functions of the controller that read the session store and the session
files while others write them are programs of queries.

A script runs at one point of the world's history; the rebuild of the
completion index takes a while and finds every marker that was durable when it
began.  Either may fail, and the world moves before, during and after.

`Answers D chats fingerprint P` is the world of the system under a discipline
`D`, on its way through states that satisfy `P`.
-/

namespace WhatsAppMcp.Controller.Pi

open Calls Redis

/-- A query: a script call, or `rebuild` of the completion index. -/
inductive Query (Fp : Type)
  | script (chat : String) (op : Op Fp)
  | proofs

variable {Fp : Type}

/-- What a query comes back with. -/
abbrev Query.Value : Query Fp → Type
  | .script _ _ => Reply Fp
  | .proofs => List (CompletionProof Fp)

/-- The value of a query, or the code of the error that it throws. -/
abbrev Query.Answer (q : Query Fp) : Type := Except ErrorClass q.Value

/-- A program of the controller. -/
abbrev Async (Fp α : Type) := Prog (Query Fp) Query.Answer ErrorClass α

/-- `await` of a query. -/
def ask (q : Query Fp) : Async Fp q.Value :=
  Prog.query q >>= fun
    | .ok value => pure value
    | .error code => throw code

/-- `evalScript`. -/
def evalScript (chat : String) (op : Op Fp) : Async Fp (Reply Fp) := ask (.script chat op)

/-- `rebuild(snapshot())`. -/
def rebuild : Async Fp (List (CompletionProof Fp)) := ask .proofs

theorem runs_ask_ok {σ : Type} {answers : σ → (q : Query Fp) → q.Answer → σ → Prop} {q : Query Fp}
    {v : q.Value} {s t : σ} :
    Prog.Runs answers (ask q) s (.ok v) t ↔ answers s q (.ok v) t := by
  unfold ask
  rw [Prog.runs_bind_ok]
  constructor
  · intro h
    obtain ⟨answer, u, hquery, hrest⟩ := h
    obtain ⟨_, hanswer, he⟩ := Prog.runs_query.mp hquery
    cases he
    cases answer with
    | ok value =>
      obtain ⟨hv, rfl⟩ := Prog.runs_pure.mp hrest
      cases hv
      exact hanswer
    | error code =>
      obtain ⟨hv, -⟩ := Prog.runs_throw.mp hrest
      cases hv
  · intro h
    exact ⟨.ok v, t, Prog.runs_query.mpr ⟨.ok v, h, rfl⟩, rfl, rfl⟩

variable [DecidableEq Fp]

/-- The system moves, through states that satisfy `P`. -/
def Moves (D : Discipline Fp) (chats : List String) (fingerprint : NotificationV2 → Fp)
    (P : System Fp → Prop) : System Fp → System Fp → Prop :=
  Relation.ReflTransGen fun s t => (∃ l, System.Step D chats fingerprint s l t) ∧ P t

/-- What the system may answer. -/
inductive Answers (D : Discipline Fp) (chats : List String) (fingerprint : NotificationV2 → Fp)
    (P : System Fp → Prop) : System Fp → (q : Query Fp) → q.Answer → System Fp → Prop
  | script {s u v t : System Fp} {chat : String} {op : Op Fp} {clk : Clock} {r : Reply Fp}
      (before : Moves D chats fingerprint P s u)
      (run : System.Step D chats fingerprint u (some (⟨chat, op, clk⟩, r)) v) (held : P v)
      (after : Moves D chats fingerprint P v t) :
      Answers D chats fingerprint P s (.script chat op) (.ok r) t
  /-- The connection fails, before the script or after it. -/
  | broken {s t : System Fp} {chat : String} {op : Op Fp} {code : ErrorClass}
      (moves : Moves D chats fingerprint P s t) :
      Answers D chats fingerprint P s (.script chat op) (.error code) t
  | proofs {s t : System Fp} {found : List (CompletionProof Fp)}
      (moves : Moves D chats fingerprint P s t) (complete : ∀ m ∈ s.markers, m ∈ found)
      (durable : ∀ m ∈ found, m ∈ t.markers) :
      Answers D chats fingerprint P s .proofs (.ok found) t
  /-- A session file cannot be read. -/
  | unread {s t : System Fp} {code : ErrorClass} (moves : Moves D chats fingerprint P s t) :
      Answers D chats fingerprint P s .proofs (.error code) t

section Rules

/-- The reply of a call is the one of its script. -/
theorem reply_of_step {chats : List String} {fingerprint : NotificationV2 → Fp} {s t : Store Fp}
    {c : Call Fp} {r : Reply Fp} (h : Store.Step chats fingerprint s (some (c, r)) t) :
    r = (c.op.run c.clk (s.keys c.chat)).1 := by
  cases h with
  | call _ _ _ hrun => rw [hrun]

variable {D : Discipline Fp} {chats : List String} {fingerprint : NotificationV2 → Fp}
  {P : System Fp → Prop} {s t : System Fp}

/-- What every step keeps, the moves keep. -/
theorem Moves.invariant {R : System Fp → Prop} (h : Moves D chats fingerprint P s t) (hs : R s)
    (hstep : ∀ s l t, System.Step D chats fingerprint s l t → R s → R t) : R t := by
  induction h with
  | refl => exact hs
  | tail _ last ih =>
    obtain ⟨⟨l, hlast⟩, -⟩ := last
    exact hstep _ _ _ hlast ih

theorem Moves.held (h : Moves D chats fingerprint P s t) (hs : P s) : P t := by
  induction h with
  | refl => exact hs
  | tail _ last => exact last.2

/-- The world moves on while a query is answered. -/
theorem Answers.moves {q : Query Fp} {a : q.Answer} (h : Answers D chats fingerprint P s q a t) :
    Moves D chats fingerprint P s t := by
  cases h with
  | script before run held after => exact before.trans (.head ⟨⟨_, run⟩, held⟩ after)
  | broken moves => exact moves
  | proofs moves => exact moves
  | unread moves => exact moves

/-- What every step keeps, an answer keeps. -/
theorem Answers.invariant {R : System Fp → Prop} {q : Query Fp} {a : q.Answer}
    (h : Answers D chats fingerprint P s q a t) (hs : R s)
    (hstep : ∀ s l t, System.Step D chats fingerprint s l t → R s → R t) : R t :=
  h.moves.invariant hs hstep

/-- `journal-list` reads the journal as it is at one point. -/
theorem Answers.journalList {chat : String} {records : List (JournalRecord Fp)}
    (h : Answers D chats fingerprint P s (.script chat .journalList) (.ok (.journal records)) t) :
    ∃ u, Moves D chats fingerprint P s u ∧ Moves D chats fingerprint P u t ∧
      records = (u.store.chats chat).tools.vals := by
  cases h with
  | script before run held after =>
    refine ⟨_, before, .head ⟨⟨_, run⟩, held⟩ after, ?_⟩
    have hreply := reply_of_step run.store
    cases hreply
    rfl

end Rules

end WhatsAppMcp.Controller.Pi
