import WhatsAppMcp.Bridge.Store.Effects

/-!
# The embedding worker

The statements of `embedder/worker.py` beside the calls of the bridge store.
Any number of workers stamp messages that have nothing to embed, fetch messages
without a stamp, and insert and stamp them one after another.  Every statement
commits by itself, and a worker may fail between any two of them and begin
again.

The model of the sentence transformer is the parameter `encode`.

* `Matched` is what the statements keep: whatever is stored or under way was
  computed from the content that the message has.
* `stamps_honest`: with it every stamp is honest, as long as the bridge gives no
  other text to a message that a worker has seen.
-/

namespace WhatsAppMcp.Embedder

open Bridge.Store
open Trace (Exec)

variable {V : Type}

/-! ## The tables and the workers -/

/-- A row of `message_embeddings`. -/
structure EmbeddingRow (V : Type) where
  messageId : String
  chatJid : String
  embedding : V
  deriving DecidableEq, Repr

/-- The primary key `(message_id, chat_jid)`. -/
def EmbeddingRow.key (e : EmbeddingRow V) : String × String := (e.messageId, e.chatJid)

/-- A row that `fetch_unembedded` returns. -/
structure Fetched where
  id : String
  chatJid : String
  content : String
  deriving DecidableEq, Repr

/-- The message that was fetched. -/
def Fetched.key (f : Fetched) : String × String := (f.id, f.chatJid)

/-- Where a worker stands in `embed_batch`: the messages that are left, and whether
the first of them is inserted. -/
structure Progress where
  batch : List Fetched
  inserted : Bool

/-- The database, the messages whose `embedded_at` is set, the embeddings and the
workers. -/
structure World (V : Type) where
  db : Database
  embedded : List (String × String)
  embeddings : Table (EmbeddingRow V) (String × String) EmbeddingRow.key
  workers : Nat → Progress

/-- The keys of messages are compared with `=`. -/
local instance lawfulEmbedded : LawfulBEq (String × String) := inferInstance

/-! ## Statements -/

/-- `skip_non_embeddable`. -/
def World.skipNonEmbeddable (w : World V) : World V :=
  let empty := w.db.messages.rows.filter fun m => m.key ∉ w.embedded ∧ m.content = ""
  { w with embedded := w.embedded ++ empty.map (·.key) }

/-- The columns of the select. -/
def fetched (m : StoredMessage) : Fetched := ⟨m.id, m.chatJid, m.content⟩

/-- `fetch_unembedded`: the oldest messages with text and without a stamp. -/
def World.Fetches (w : World V) (batchSize : Nat) (batch : List Fetched) : Prop :=
  ∃ rows, w.db.messages.Selects (fun m => m.key ∉ w.embedded ∧ m.content ≠ "") (·.timestamp)
    batchSize rows ∧ batch = rows.map fetched

/-- `INSERT INTO message_embeddings … ON CONFLICT DO NOTHING`.  The message is
there, since no statement deletes one. -/
def World.insertEmbedding (w : World V) (encode : String → V) (f : Fetched) : World V :=
  match w.embeddings.insert ⟨f.id, f.chatJid, encode f.content⟩ with
  | some embeddings => { w with embeddings := embeddings }
  | none => w

/-- `UPDATE messages SET embedded_at = NOW()`. -/
def World.stampMessage (w : World V) (f : Fetched) : World V :=
  if (w.db.messages.lookup f.key).isSome then { w with embedded := w.embedded ++ [f.key] } else w

/-- The world with worker `i` at another point. -/
def World.setWorker (w : World V) (i : Nat) (p : Progress) : World V :=
  { w with workers := Function.update w.workers i p }

/-- The next statement of `embed_batch` of worker `i`. -/
def World.embedNext (w : World V) (encode : String → V) (i : Nat) : World V :=
  match w.workers i with
  | ⟨f :: rest, false⟩ => (w.insertEmbedding encode f).setWorker i ⟨f :: rest, true⟩
  | ⟨f :: rest, true⟩ => (w.stampMessage f).setWorker i ⟨rest, false⟩
  | ⟨[], _⟩ => w

/-! ## Steps -/

/-- What happens next. -/
inductive Event where
  | bridge (call : Call)
  | skip
  | fetch (worker batchSize : Nat)
  | embed (worker : Nat)
  | fail (worker : Nat)

/-- A step of the world.  A worker that is through with its batch may fetch the
next one, and one that fails begins again. -/
inductive Step (encode : String → V) : World V → Event → World V → Prop
  | bridge {w : World V} {c : Call} :
      Step encode w (.bridge c) { w with db := c.op.run c.env w.db }
  | skip {w : World V} : Step encode w .skip w.skipNonEmbeddable
  | fetch {w : World V} {i batchSize : Nat} {batch : List Fetched}
      (hidle : (w.workers i).batch = []) (hfetch : w.Fetches batchSize batch) :
      Step encode w (.fetch i batchSize) (w.setWorker i ⟨batch, false⟩)
  | embed {w : World V} {i : Nat} : Step encode w (.embed i) (w.embedNext encode i)
  | fail {w : World V} {i : Nat} : Step encode w (.fail i) (w.setWorker i ⟨[], false⟩)

/-- The store as the migrations create it, and workers that have not begun. -/
def World.initial : World V := ⟨.empty, [], .empty, fun _ => ⟨[], false⟩⟩

/-- Every stamped message has empty content, or an embedding of the content that
it has. -/
def World.Honest (w : World V) (encode : String → V) : Prop :=
  ∀ m ∈ w.db.messages, m.key ∈ w.embedded →
    m.content = "" ∨ ∃ e ∈ w.embeddings, e.key = m.key ∧ e.embedding = encode m.content

/-- No worker has seen the message. -/
structure World.Unseen (w : World V) (key : String × String) : Prop where
  stamp : key ∉ w.embedded
  embedding : w.embeddings.lookup key = none
  batches : ∀ i, ∀ f ∈ (w.workers i).batch, f.key ≠ key

/-- A save that carries another text, not empty, for a stored message comes before any worker has
seen the message. -/
def World.Timely (w : World V) : Event → Prop
  | .bridge ⟨.saveMessage (some m) _, _, _⟩ => ∀ old, w.db.messages.lookup m.key = some old →
      m.content = old.content ∨ m.content = "" ∨ w.Unseen m.key
  | _ => True

/-! ## What the statements keep -/

/-- Every embedding, and every message of a batch, has the content of its message,
unless that is empty by now. -/
structure World.Matched (w : World V) (encode : String → V) : Prop where
  stamps : ∀ key ∈ w.embedded, ∃ m, w.db.messages.lookup key = some m ∧
    (m.content = "" ∨ ∃ e, w.embeddings.lookup key = some e)
  embeddings : ∀ key e, w.embeddings.lookup key = some e →
    ∃ m, w.db.messages.lookup key = some m ∧ (m.content = "" ∨ e.embedding = encode m.content)
  batches : ∀ i, ∀ f ∈ (w.workers i).batch,
    ∃ m, w.db.messages.lookup f.key = some m ∧ (m.content = "" ∨ m.content = f.content)
  inserted : ∀ i f rest, w.workers i = ⟨f :: rest, true⟩ → ∃ e, w.embeddings.lookup f.key = some e

theorem World.Matched.honest {w : World V} {encode : String → V} (h : w.Matched encode) :
    w.Honest encode := by
  intro m hm hstamped
  have hrow : w.db.messages.lookup m.key = some m := Table.lookup_of_mem hm
  obtain ⟨m', hm', hembedded⟩ := h.stamps m.key hstamped
  obtain rfl := Option.some.inj (hrow.symm.trans hm')
  rcases hembedded with hempty | ⟨e, he⟩
  · exact .inl hempty
  · obtain ⟨m', hm', hcontent⟩ := h.embeddings m.key e he
    obtain rfl := Option.some.inj (hrow.symm.trans hm')
    exact hcontent.imp_right fun hencoded =>
      ⟨e, Table.mem_of_lookup he, Table.lookup_key he, hencoded⟩

/-- What a call of the bridge does to a message row. -/
theorem messages_run (c : Call) (db : Database) (key : String × String) :
    (c.op.run c.env db).messages.lookup key = db.messages.lookup key ∨
      ∃ m request flag, c.op = .saveMessage (some m) request ∧ key = m.key ∧
        (c.op.run c.env db).messages.lookup key = some (m.stored flag) := by
  have hwrote : ∀ {m : MessageRow} {flag : Bool} {db' db'' : Database}, db.Wrote m flag db' →
      db''.messages = db'.messages → db''.messages.lookup key = db.messages.lookup key ∨
        key = m.key ∧ db''.messages.lookup key = some (m.stored flag) := by
    intro m flag db' db'' hwrote hsame
    rw [hsame]
    by_cases hkey : key = m.key
    · exact .inr ⟨hkey, hkey ▸ hwrote.stored⟩
    · exact .inl (hwrote.others key hkey)
  cases c.moves db with
  | stays same => exact .inl (by rw [same])
  | chat chats next => exact .inl (by rw [next])
  | registers call registered => exact .inl (by rw [registered.frame])
  | delivers delivered => exact .inl (by rw [delivered.messages])
  | @saves m request call saved =>
    cases saved with
    | @silent flag wrote =>
      rcases hwrote wrote rfl with hsame | ⟨hkey, hstored⟩
      · exact .inl hsame
      · exact .inr ⟨m, request, flag, call, hkey, hstored⟩
    | notified wrote asked valid generated enqueued =>
      rcases hwrote wrote enqueued.messages with hsame | ⟨hkey, hstored⟩
      · exact .inl hsame
      · exact .inr ⟨m, request, false, call, hkey, hstored⟩

/-- A timely call keeps the content of a message that a worker has seen, or leaves it
empty. -/
theorem content_run {w : World V} {c : Call} (htimely : w.Timely (.bridge c)) {key : String × String}
    {m : StoredMessage} (hm : w.db.messages.lookup key = some m) (hseen : ¬ w.Unseen key) :
    ∃ m', (c.op.run c.env w.db).messages.lookup key = some m' ∧
      (m'.content = "" ∨ m'.content = m.content) := by
  rcases messages_run c w.db key with hsame | ⟨new, request, flag, hop, rfl, hstored⟩
  · exact ⟨m, hsame.trans hm, .inr rfl⟩
  · obtain ⟨op, env, done⟩ := c
    obtain rfl : op = .saveMessage (some new) request := hop
    rcases htimely m hm with hcontent | hempty | hunseen
    · exact ⟨_, hstored, .inr hcontent⟩
    · exact ⟨_, hstored, .inl hempty⟩
    · exact absurd hunseen hseen

section Statements

variable {w : World V} {encode : String → V}

theorem World.Matched.bridge {c : Call} (h : w.Matched encode) (htimely : w.Timely (.bridge c)) :
    World.Matched { w with db := c.op.run c.env w.db } encode where
  stamps key hkey := by
    obtain ⟨m, hm, hembedded⟩ := h.stamps key hkey
    obtain ⟨m', hm', hempty | hcontent⟩ :=
      content_run htimely hm fun hunseen => hunseen.stamp hkey
    · exact ⟨m', hm', .inl hempty⟩
    · exact ⟨m', hm', hcontent ▸ hembedded⟩
  embeddings key e he := by
    obtain ⟨m, hm, hembedding⟩ := h.embeddings key e he
    obtain ⟨m', hm', hempty | hcontent⟩ := content_run htimely hm fun hunseen => by
      rw [hunseen.embedding] at he
      cases he
    · exact ⟨m', hm', .inl hempty⟩
    · exact ⟨m', hm', hcontent ▸ hembedding⟩
  batches i f hf := by
    obtain ⟨m, hm, hfetched⟩ := h.batches i f hf
    obtain ⟨m', hm', hempty | hcontent⟩ :=
      content_run htimely hm fun hunseen => hunseen.batches i f hf rfl
    · exact ⟨m', hm', .inl hempty⟩
    · exact ⟨m', hm', hcontent ▸ hfetched⟩
  inserted := h.inserted

theorem World.Matched.skip (h : w.Matched encode) : w.skipNonEmbeddable.Matched encode where
  stamps key hkey := by
    rcases List.mem_append.mp hkey with hold | hnew
    · exact h.stamps key hold
    · obtain ⟨m, hm, rfl⟩ := List.mem_map.mp hnew
      obtain ⟨hrow, hempty⟩ := List.mem_filter.mp hm
      exact ⟨m, Table.lookup_of_mem (t := w.db.messages) hrow,
        .inl (by simpa using (of_decide_eq_true hempty).2)⟩
  embeddings := h.embeddings
  batches := h.batches
  inserted := h.inserted

/-- A worker may be set to a batch that matches. -/
theorem World.Matched.setWorker (h : w.Matched encode) {i : Nat} {p : Progress}
    (hbatch : ∀ f ∈ p.batch,
      ∃ m, w.db.messages.lookup f.key = some m ∧ (m.content = "" ∨ m.content = f.content))
    (hinserted : ∀ f rest, p = ⟨f :: rest, true⟩ → ∃ e, w.embeddings.lookup f.key = some e) :
    (w.setWorker i p).Matched encode where
  stamps := h.stamps
  embeddings := h.embeddings
  batches j f hf := by
    by_cases hj : j = i
    · subst hj
      simp only [World.setWorker, Function.update_self] at hf
      exact hbatch f hf
    · simp only [World.setWorker, Function.update_of_ne hj] at hf
      exact h.batches j f hf
  inserted j f rest hj := by
    by_cases hi : j = i
    · subst hi
      simp only [World.setWorker, Function.update_self] at hj
      exact hinserted f rest hj
    · simp only [World.setWorker, Function.update_of_ne hi] at hj
      exact h.inserted j f rest hj

theorem World.Matched.fetch (h : w.Matched encode) {i batchSize : Nat} {batch : List Fetched}
    (hfetch : w.Fetches batchSize batch) : (w.setWorker i ⟨batch, false⟩).Matched encode := by
  obtain ⟨rows, hselects, rfl⟩ := hfetch
  refine h.setWorker (fun f hf => ?_) fun f rest heq => nomatch (Progress.mk.inj heq).2
  obtain ⟨m, hm, rfl⟩ := List.mem_map.mp hf
  exact ⟨m, Table.lookup_of_mem (Table.mem_of_selects hselects hm).1, .inr rfl⟩

/-- The insert of a message of a batch. -/
theorem World.Matched.insertEmbedding (h : w.Matched encode) {f : Fetched}
    (hf : ∃ m, w.db.messages.lookup f.key = some m ∧ (m.content = "" ∨ m.content = f.content)) :
    (w.insertEmbedding encode f).Matched encode ∧
      ∃ e, (w.insertEmbedding encode f).embeddings.lookup f.key = some e := by
  unfold World.insertEmbedding
  split
  · next embeddings hinsert =>
    have hlookup : ∀ key, embeddings.lookup key =
        if key = f.key then some ⟨f.id, f.chatJid, encode f.content⟩ else w.embeddings.lookup key :=
      fun key => Table.lookup_insert hinsert
    have hkept : ∀ {key e}, w.embeddings.lookup key = some e →
        ∃ e, embeddings.lookup key = some e := by
      intro key e he
      rw [hlookup]
      split
      · exact ⟨_, rfl⟩
      · exact ⟨e, he⟩
    refine ⟨⟨fun key hkey => ?_, fun key e he => ?_, h.batches, fun i g rest hi => ?_⟩, ?_⟩
    · obtain ⟨m, hm, hempty | ⟨e, he⟩⟩ := h.stamps key hkey
      · exact ⟨m, hm, .inl hempty⟩
      · exact ⟨m, hm, .inr (hkept he)⟩
    · change embeddings.lookup key = some e at he
      rw [hlookup] at he
      split at he
      · next hkey =>
        obtain ⟨m, hm, hcontent⟩ := hf
        cases he
        exact ⟨m, hkey ▸ hm, hcontent.imp_right fun heq => by rw [heq]⟩
      · exact h.embeddings key e he
    · obtain ⟨e, he⟩ := h.inserted i g rest hi
      exact hkept he
    · exact ⟨_, by rw [hlookup, if_pos rfl]⟩
  · next hinsert =>
    exact ⟨h, Table.insert_eq_none.mp hinsert⟩

/-- The stamp of a message that has its embedding. -/
theorem World.Matched.stampMessage (h : w.Matched encode) {f : Fetched}
    (he : ∃ e, w.embeddings.lookup f.key = some e) : (w.stampMessage f).Matched encode := by
  unfold World.stampMessage
  split
  · next hsome =>
    refine ⟨fun key hkey => ?_, h.embeddings, h.batches, h.inserted⟩
    rcases List.mem_append.mp hkey with hold | hnew
    · exact h.stamps key hold
    · obtain rfl := List.mem_singleton.mp hnew
      obtain ⟨m, hm⟩ := Option.isSome_iff_exists.mp hsome
      exact ⟨m, hm, .inr he⟩
  · exact h

theorem World.Matched.embed (h : w.Matched encode) (i : Nat) : (w.embedNext encode i).Matched encode := by
  unfold World.embedNext
  split
  · next f rest hworker =>
    have hbatch := h.batches i
    rw [hworker] at hbatch
    obtain ⟨hinserted, e, he⟩ := h.insertEmbedding (hbatch f List.mem_cons_self)
    have hdb : (w.insertEmbedding encode f).db = w.db := by
      unfold World.insertEmbedding
      split <;> rfl
    refine hinserted.setWorker (fun g hg => ?_) fun g rest heq => ?_
    · rw [hdb]
      exact hbatch g hg
    · cases heq
      exact ⟨e, he⟩
  · next f rest hworker =>
    have hbatch := h.batches i
    rw [hworker] at hbatch
    have hdb : (w.stampMessage f).db = w.db := by
      unfold World.stampMessage
      split <;> rfl
    refine (h.stampMessage (h.inserted i f rest hworker)).setWorker (fun g hg => ?_)
      fun g rest heq => by cases heq
    rw [hdb]
    exact hbatch g (List.mem_cons_of_mem _ hg)
  · exact h

/-- A timely step keeps it. -/
theorem step_matched {w' : World V} {event : Event} (h : w.Matched encode)
    (hstep : Step encode w event w') (htimely : w.Timely event) : w'.Matched encode := by
  cases hstep with
  | bridge => exact h.bridge htimely
  | skip => exact h.skip
  | fetch hidle hfetch => exact h.fetch hfetch
  | embed => exact h.embed _
  | fail => exact h.setWorker (fun _ hf => nomatch hf) nofun

end Statements

theorem initial_matched (encode : String → V) : (World.initial : World V).Matched encode where
  stamps _ hkey := nomatch hkey
  embeddings _ _ he := nomatch he
  batches _ _ hf := nomatch hf
  inserted _ _ _ heq := nomatch heq

/-- In a run whose saves are all timely, every stamp is honest in every state. -/
theorem stamps_honest {encode : String → V} {es : List Event} {w : World V}
    (h : Exec (fun w event w' => Step encode w event w' ∧ w.Timely event) .initial es w) :
    w.Honest encode :=
  (h.invariant (P := fun w => World.Matched w encode) (initial_matched encode)
    fun _ _ _ hw hstep => step_matched hw hstep.1 hstep.2).honest

/-! ## A sample message -/

/-- The message after the first call below. -/
def sampleFetched : Fetched := ⟨"M1", "15@lid", "hello"⟩

/-- The call that stores the chat. -/
def sampleChatCall : Call := sampleCall (.upsertChat "15@lid") 10 0

/-- The call that stores the message. -/
def sampleSave (content : String) : Call :=
  sampleCall (.saveMessage (some { sampleMessage with content := content }) none) 20 1

/-- The world after some calls of the bridge. -/
def World.bridged {V : Type} (w : World V) (calls : List Call) : World V :=
  { w with db := calls.foldl (fun db c => c.op.run c.env db) w.db }

/-- The message is stored and embedded, with texts as their own vectors. -/
def sampleEmbedded : World String :=
  let stored := World.initial.bridged [sampleChatCall, sampleSave "hello"]
  ((stored.setWorker 0 ⟨[sampleFetched], false⟩).embedNext id 0).embedNext id 0

theorem sampleEmbedded_reached : ∃ es,
    Exec (fun w event w' => Step id w event w' ∧ w.Timely event) .initial es sampleEmbedded := by
  have h₀ : Exec (fun w event w' => Step id w event w' ∧ World.Timely w event) World.initial []
      (World.initial : World String) := .nil
  have h₁ := h₀.snoc (.intro (.bridge (c := sampleChatCall)) trivial)
  have h₂ := h₁.snoc (.intro (.bridge (c := sampleSave "hello")) fun _ hold => nomatch hold)
  have hselects : (World.initial.bridged [sampleChatCall, sampleSave "hello"] :
      World String).Fetches 100 [sampleFetched] :=
    ⟨[sampleMessage.stored false], ⟨_, List.Perm.refl _, List.pairwise_singleton _ _, rfl⟩, rfl⟩
  have h₃ := h₂.snoc ⟨.fetch (i := 0) rfl hselects, trivial⟩
  exact ⟨_, (h₃.snoc ⟨.embed (i := 0), trivial⟩).snoc ⟨.embed (i := 0), trivial⟩⟩

/-- The stamp of the message is honest. -/
theorem stamps_honest_of_sampleEmbedded : sampleEmbedded.Honest id := by
  obtain ⟨es, h⟩ := sampleEmbedded_reached
  exact stamps_honest h

/-- The stamp stays where the bridge changes the text. -/
theorem stamps_stale_of_sampleEdited :
    ¬ ∀ es w, Exec (Step (id : String → String)) .initial es w → w.Honest id := by
  intro h
  obtain ⟨es, hrun⟩ := sampleEmbedded_reached
  have hembedded : Exec (Step id) .initial es sampleEmbedded :=
    hrun.mono (P := fun _ => True) trivial fun _ _ _ _ hstep => ⟨trivial, hstep.1⟩
  have hedited := hembedded.snoc (.bridge (c := sampleSave "bye"))
  have hrow : ((sampleSave "bye").op.run (sampleSave "bye").env sampleEmbedded.db).messages.lookup
      ("M1", "15@lid") = some ({ sampleMessage with content := "bye" }.stored false) := by
    decide +kernel
  have hvectors : sampleEmbedded.embeddings.rows = [⟨"M1", "15@lid", "hello"⟩] := by
    decide +kernel
  rcases h _ _ hedited _ (Table.mem_of_lookup hrow) (by decide +kernel) with hempty | ⟨e, he, -, hbye⟩
  · exact absurd hempty (by decide)
  · have hhello := List.mem_singleton.mp (hvectors ▸ Table.mem_def.mp he)
    rw [hhello] at hbye
    exact absurd hbye (by decide)

end WhatsAppMcp.Embedder
