import WhatsAppMcp.Lib.Calls

/-!
# Programs that stop anywhere

`Prog.Runs` follows a program to its end.  A process may also die between two
queries, with the last of them carried out and its answer never seen.

`Prog.Talks` lists what a program has asked and what came back, up to its end or
up to the point where it stopped.  `Prog.Safe` is the rule for such
conversations: every query is allowed after what was said before it, and the
program ends in the postcondition.

* `safe_bind`, `safe_tryCatch`: the rules along the program.
* `Talks.asked`, `Talks.ended`: what a safe program says, wherever it stops.
* `Safe.carry`: an invariant of the world rides along.
-/

namespace Calls

variable {σ Q ε α β : Type} {A : Q → Type}

/-- A query with its answer, between two states of the world. -/
structure Turn (σ : Type) {Q : Type} (A : Q → Type) where
  before : σ
  query : Q
  answer : A query
  after : σ

namespace Prog

/-- The program has said this, and then it has ended or stopped. -/
inductive Talks (answers : σ → (q : Q) → A q → σ → Prop) :
    Prog Q A ε α → σ → List (Turn σ A) → Option (Except ε α) → σ → Prop
  | stopped {p : Prog Q A ε α} {s : σ} : Talks answers p s [] none s
  | done {a : α} {s : σ} : Talks answers (done a) s [] (some (.ok a)) s
  | fail {e : ε} {s : σ} : Talks answers (fail e) s [] (some (.error e)) s
  | ask {q : Q} {next : A q → Prog Q A ε α} {s t u : σ} {a : A q} {said : List (Turn σ A)}
      {r : Option (Except ε α)} (answer : answers s q a u) (rest : Talks answers (next a) u said r t) :
      Talks answers (ask q next) s (⟨s, q, a, u⟩ :: said) r t

variable {answers : σ → (q : Q) → A q → σ → Prop}
  {allowed : List (Turn σ A) → σ → Q → Prop} {past : List (Turn σ A)} {s : σ}

/-- After `past`, every query of the program is allowed, and it ends in `post`. -/
def Safe (answers : σ → (q : Q) → A q → σ → Prop) (allowed : List (Turn σ A) → σ → Q → Prop) :
    Prog Q A ε α → List (Turn σ A) → σ → (List (Turn σ A) → σ → Except ε α → Prop) → Prop
  | done a, past, s, post => post past s (.ok a)
  | fail e, past, s, post => post past s (.error e)
  | ask q next, past, s, post => allowed past s q ∧
      ∀ a t, answers s q a t → Safe answers allowed (next a) (past ++ [⟨s, q, a, t⟩]) t post

/-! ## Rules along the program -/

/-- A program goes on where another has ended with a value. -/
def goOn (answers : σ → (q : Q) → A q → σ → Prop) (allowed : List (Turn σ A) → σ → Q → Prop)
    (f : β → Prog Q A ε α) (post : List (Turn σ A) → σ → Except ε α → Prop)
    (past : List (Turn σ A)) (s : σ) : Except ε β → Prop
  | .ok b => Safe answers allowed (f b) past s post
  | .error e => post past s (.error e)

theorem safe_bind {p : Prog Q A ε β} {f : β → Prog Q A ε α}
    {post : List (Turn σ A) → σ → Except ε α → Prop} :
    Safe answers allowed (p >>= f) past s post ↔
      Safe answers allowed p past s (goOn answers allowed f post) := by
  show Safe answers allowed (p.andThen f) past s post ↔ _
  induction p generalizing past s with
  | done b => rfl
  | fail e => rfl
  | ask q next ih =>
    refine and_congr_right fun _ => ?_
    exact forall₃_congr fun a t _ => ih a

/-- A handler takes over where a program has ended with an error. -/
def takeOver (answers : σ → (q : Q) → A q → σ → Prop) (allowed : List (Turn σ A) → σ → Q → Prop)
    (h : ε → Prog Q A ε α) (post : List (Turn σ A) → σ → Except ε α → Prop)
    (past : List (Turn σ A)) (s : σ) : Except ε α → Prop
  | .ok a => post past s (.ok a)
  | .error e => Safe answers allowed (h e) past s post

theorem safe_tryCatch {p : Prog Q A ε α} {h : ε → Prog Q A ε α}
    {post : List (Turn σ A) → σ → Except ε α → Prop} :
    Safe answers allowed (tryCatch p h) past s post ↔
      Safe answers allowed p past s (takeOver answers allowed h post) := by
  show Safe answers allowed (p.handle h) past s post ↔ _
  induction p generalizing past s with
  | done a => rfl
  | fail e => rfl
  | ask q next ih =>
    refine and_congr_right fun _ => ?_
    exact forall₃_congr fun a t _ => ih a

/-- The postcondition may be weakened. -/
theorem Safe.imp {p : Prog Q A ε α} {post post' : List (Turn σ A) → σ → Except ε α → Prop}
    (h : Safe answers allowed p past s post) (himp : ∀ past s r, post past s r → post' past s r) :
    Safe answers allowed p past s post' := by
  induction p generalizing past s with
  | done a => exact himp _ _ _ h
  | fail e => exact himp _ _ _ h
  | ask q next ih => exact ⟨h.1, fun a t ha => ih a (h.2 a t ha)⟩

/-- What every answer to an allowed query keeps rides along. -/
theorem Safe.carry {J : σ → Prop} {p : Prog Q A ε α}
    {post : List (Turn σ A) → σ → Except ε α → Prop} (h : Safe answers allowed p past s post)
    (hs : J s) (hstep : ∀ past s q a t, allowed past s q → J s → answers s q a t → J t) :
    Safe answers (fun past s q => allowed past s q ∧ J s) p past s
      (fun past s r => post past s r ∧ J s) := by
  induction p generalizing past s with
  | done a => exact ⟨h, hs⟩
  | fail e => exact ⟨h, hs⟩
  | ask q next ih =>
    exact ⟨⟨h.1, hs⟩, fun a t ha => ih a (h.2 a t ha) (hstep past s q a t h.1 hs ha)⟩

/-! ## Where only a value matters -/

/-- After `past`, every query of the program is allowed, and a value of it
satisfies `post`. -/
def Yields (answers : σ → (q : Q) → A q → σ → Prop) (allowed : List (Turn σ A) → σ → Q → Prop)
    (p : Prog Q A ε α) (past : List (Turn σ A)) (s : σ) (post : List (Turn σ A) → σ → α → Prop) :
    Prop :=
  Safe answers allowed p past s fun past s r => ∀ a, r = .ok a → post past s a

section Values

variable {post : List (Turn σ A) → σ → α → Prop}

theorem yields_pure {a : α} (h : post past s a) :
    Yields answers allowed (pure a : Prog Q A ε α) past s post := by
  intro b hb
  cases hb
  exact h

theorem yields_throw {e : ε} : Yields answers allowed (throw e : Prog Q A ε α) past s post := by
  intro b hb
  cases hb

theorem yields_query {q : Q} {post : List (Turn σ A) → σ → A q → Prop} (hq : allowed past s q)
    (h : ∀ a t, answers s q a t → post (past ++ [⟨s, q, a, t⟩]) t a) :
    Yields answers allowed (query q : Prog Q A ε (A q)) past s post := by
  refine ⟨hq, fun a t ha b hb => ?_⟩
  cases hb
  exact h a t ha

theorem Yields.bind {p : Prog Q A ε β} {f : β → Prog Q A ε α}
    {mid : List (Turn σ A) → σ → β → Prop} (h : Yields answers allowed p past s mid)
    (hf : ∀ past s b, mid past s b → Yields answers allowed (f b) past s post) :
    Yields answers allowed (p >>= f) past s post := by
  unfold Yields
  rw [safe_bind]
  refine h.imp fun past s r hr => ?_
  cases r with
  | ok b => exact hf past s b (hr b rfl)
  | error e => exact fun a ha => by cases ha

theorem Yields.rethrow {p : Prog Q A ε α} {e' : ε} (h : Yields answers allowed p past s post) :
    Yields answers allowed (tryCatch p fun _ => throw e') past s post := by
  unfold Yields
  rw [safe_tryCatch]
  refine h.imp fun past s r hr => ?_
  cases r with
  | ok a => exact hr
  | error e => exact fun a ha => by cases ha

theorem Yields.imp {p : Prog Q A ε α} {post' : List (Turn σ A) → σ → α → Prop}
    (h : Yields answers allowed p past s post) (himp : ∀ past s a, post past s a → post' past s a) :
    Yields answers allowed p past s post' :=
  Safe.imp h fun past s _ hr a ha => himp past s a (hr a ha)

end Values

/-! ## Programs of harmless queries -/

/-- Every query of the program satisfies `G`. -/
def Asks (G : Q → Prop) : Prog Q A ε α → Prop
  | done _ => True
  | fail _ => True
  | ask q next => G q ∧ ∀ a, Asks G (next a)

section Harmless

variable {G : Q → Prop}

@[simp] theorem asks_pure {a : α} : Asks G (pure a : Prog Q A ε α) := trivial

@[simp] theorem asks_throw {e : ε} : Asks G (throw e : Prog Q A ε α) := trivial

theorem asks_query {q : Q} (h : G q) : Asks G (query q : Prog Q A ε (A q)) := ⟨h, fun _ => trivial⟩

theorem Asks.bind {p : Prog Q A ε β} {f : β → Prog Q A ε α} (h : Asks G p)
    (hf : ∀ b, Asks G (f b)) : Asks G (p >>= f) := by
  show Asks G (p.andThen f)
  induction p with
  | done b => exact hf b
  | fail e => trivial
  | ask q next ih => exact ⟨h.1, fun a => ih a (h.2 a)⟩

theorem Asks.tryCatch {p : Prog Q A ε α} {handler : ε → Prog Q A ε α} (h : Asks G p)
    (hhandler : ∀ e, Asks G (handler e)) : Asks G (tryCatch p handler) := by
  show Asks G (p.handle handler)
  induction p with
  | done a => trivial
  | fail e => exact hhandler e
  | ask q next ih => exact ⟨h.1, fun a => ih a (h.2 a)⟩

/-- What the queries keep, and what allows them, holds to the end. -/
theorem Asks.yields {F : List (Turn σ A) → σ → Prop} {p : Prog Q A ε α} (h : Asks G p)
    (hF : F past s) (hallowed : ∀ past s q, G q → F past s → allowed past s q)
    (hkeep : ∀ past s q a t, G q → F past s → answers s q a t → F (past ++ [⟨s, q, a, t⟩]) t) :
    Yields answers allowed p past s fun past s _ => F past s := by
  induction p generalizing past s with
  | done a => exact fun _ _ => hF
  | fail e => exact fun _ _ => hF
  | ask q next ih =>
    exact ⟨hallowed past s q h.1 hF, fun a t ha => ih a (h.2 a) (hkeep past s q a t h.1 hF ha)⟩

end Harmless

/-! ## What a safe program says -/

section Conversation

variable {p : Prog Q A ε α} {post : List (Turn σ A) → σ → Except ε α → Prop}
  {said : List (Turn σ A)} {r : Option (Except ε α)} {t : σ}

theorem Talks.asked (h : Talks answers p s said r t) (safe : Safe answers allowed p past s post) :
    ∀ before turn after, said = before ++ turn :: after →
      allowed (past ++ before) turn.before turn.query := by
  induction h generalizing past with
  | stopped => simp
  | done => simp
  | fail => simp
  | @ask q next s t u a said r answer rest ih =>
    intro before turn after hsaid
    cases before with
    | nil =>
      cases hsaid
      simpa using safe.1
    | cons first before =>
      cases hsaid
      simpa using ih (safe.2 a u answer) before turn after rfl

theorem Talks.ended (h : Talks answers p s said r t) (safe : Safe answers allowed p past s post)
    {result : Except ε α} (hresult : r = some result) : post (past ++ said) t result := by
  induction h generalizing past with
  | stopped => cases hresult
  | done =>
    cases hresult
    rw [List.append_nil]
    exact safe
  | fail =>
    cases hresult
    rw [List.append_nil]
    exact safe
  | @ask q next s t u a said r answer rest ih =>
    simpa using ih (safe.2 a u answer) hresult

/-- Every turn of a conversation is an answer of the world. -/
theorem Talks.answered (h : Talks answers p s said r t) :
    ∀ turn ∈ said, answers turn.before turn.query turn.answer turn.after := by
  induction h with
  | stopped => simp
  | done => simp
  | fail => simp
  | ask answer rest ih =>
    intro turn hturn
    rcases List.mem_cons.mp hturn with rfl | hturn
    · exact answer
    · exact ih turn hturn

/-- What every answer to an allowed query keeps holds wherever the program stops. -/
theorem Talks.kept {J : σ → Prop} (h : Talks answers p s said r t)
    (safe : Safe answers allowed p past s post) (hs : J s)
    (hstep : ∀ past s q a t, allowed past s q → J s → answers s q a t → J t) : J t := by
  induction h generalizing past with
  | stopped => exact hs
  | done => exact hs
  | fail => exact hs
  | @ask q next s t u a said r answer rest ih =>
    exact ih (safe.2 a u answer) (hstep past s q a u safe.1 hs answer)

end Conversation

/-! ## Running a program up to a point -/

/-- The conversation with a world that answers by a function, up to `n` steps. -/
def converse (respond : σ → (q : Q) → A q × σ) :
    Nat → Prog Q A ε α → σ → List (Turn σ A) × Option (Except ε α) × σ
  | 0, _, s => ([], none, s)
  | _ + 1, done a, s => ([], some (.ok a), s)
  | _ + 1, fail e, s => ([], some (.error e), s)
  | n + 1, ask q next, s =>
    let rest := converse respond n (next (respond s q).1) (respond s q).2
    (⟨s, q, (respond s q).1, (respond s q).2⟩ :: rest.1, rest.2)

theorem converse_talks {respond : σ → (q : Q) → A q × σ}
    (hrespond : ∀ s q, answers s q (respond s q).1 (respond s q).2) (n : Nat) (p : Prog Q A ε α)
    (s : σ) : Talks answers p s (converse respond n p s).1 (converse respond n p s).2.1
      (converse respond n p s).2.2 := by
  induction n generalizing p s with
  | zero => exact .stopped
  | succ n ih =>
    cases p with
    | done a => exact .done
    | fail e => exact .fail
    | ask q next => exact .ask (hrespond s q) (ih _ _)

end Prog

end Calls
