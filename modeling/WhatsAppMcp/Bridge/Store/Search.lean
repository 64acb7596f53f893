import WhatsAppMcp.Bridge.Store.Runs
import WhatsAppMcp.Lib.Fusion
import WhatsAppMcp.Lib.Paging

/-!
# Hybrid search

`bridge/store/search.go`: the statements that a search assembles from fragments,
and what the server makes of the one for both signals.

A statement is its list of clauses with the numbers of its placeholders, and the
server parses the clauses first.  What the model leaves open about the server is
the structure `SearchServer`: the two signals, the rounding of a division, the
order in which rows leave a window, and whether the scan of the embeddings reads
them all or goes through an approximate index.

* `parse_hybrid`: the statement parses exactly without a chat filter.
* `fuses_of_best`: an execution that hands out the best candidates fuses them.
* `searchHybrid_iff`: when every search with both signals is a rank fusion.
-/

namespace WhatsAppMcp.Bridge.Store

open Fusion (Joined fullOuterJoin numbered take_numbered Fused)

/-! ## Tables -/

/-- A row of `message_embeddings`. -/
structure EmbeddingRow (ε : Type) where
  messageId : String
  chatJid : String
  embedding : ε

/-- The primary key `(message_id, chat_jid)`. -/
def EmbeddingRow.key {ε : Type} (e : EmbeddingRow ε) : String × String := (e.messageId, e.chatJid)

/-- The tables of a search, with the foreign key of the embeddings. -/
structure SearchTables (ε : Type) where
  messages : Table StoredMessage (String × String) (·.key)
  embeddings : Table (EmbeddingRow ε) (String × String) EmbeddingRow.key
  references : ∀ e ∈ embeddings.rows, ∃ m, messages.lookup e.key = some m

/-! ## Statements -/

/-- An argument of a statement. -/
inductive Arg (ε : Type) where
  | text (value : String)
  | vector (value : ε)
  | bigint (value : Int)

/-- `argList.add`: the argument at the end, and the number of its placeholder. -/
def addArg {ε : Type} (args : List (Arg ε)) (value : Arg ε) : Nat × List (Arg ε) :=
  (args.length + 1, args ++ [value])

/-- A condition of a `WHERE` clause, with the number of its placeholder. -/
inductive Cond where
  /-- `content_fts @@ plainto_tsquery('simple', $n)` -/
  | found (param : Nat)
  /-- `chat_jid = $n` -/
  | chatIs (param : Nat)
  /-- `TRUE` -/
  | always
  deriving DecidableEq

/-- What stands after `LIMIT`. -/
inductive Bound where
  | count (n : Nat)
  | param (n : Nat)
  deriving DecidableEq

/-- A clause of a `SELECT`. -/
inductive Clause where
  | fromTable
  | whereIs (cond : Cond)
  | andIs (cond : Cond)
  | orderBy
  | limit (bound : Bound)
  deriving DecidableEq

/-- A `SELECT` after parsing. -/
structure Select where
  conds : List Cond
  ordered : Bool
  bound : Option Bound
  deriving DecidableEq

/-- The conditions behind a `WHERE`, and the clauses after them. -/
def takeAnds : List Clause → List Cond × List Clause
  | .andIs cond :: rest => (cond :: (takeAnds rest).1, (takeAnds rest).2)
  | rest => ([], rest)

/-- `AND` continues a `WHERE`, and nothing else. -/
def parseWhere : List Clause → List Cond × List Clause
  | .whereIs cond :: rest => (cond :: (takeAnds rest).1, (takeAnds rest).2)
  | rest => ([], rest)

def parseOrderBy : List Clause → Bool × List Clause
  | .orderBy :: rest => (true, rest)
  | rest => (false, rest)

def parseLimit : List Clause → Option Bound × List Clause
  | .limit bound :: rest => (some bound, rest)
  | rest => (none, rest)

/-- `FROM`, then `WHERE`, `ORDER BY` and `LIMIT` in this order; all else is a syntax error. -/
def parseSelect : List Clause → Option Select
  | .fromTable :: rest =>
    let (conds, rest) := parseWhere rest
    let (ordered, rest) := parseOrderBy rest
    let (bound, rest) := parseLimit rest
    if rest = [] then some ⟨conds, ordered, bound⟩ else none
  | _ => none

/-- The statement of `searchHybridRRF`: the clauses of `fts_results` and `vec_results`, and
the placeholders outside of them. -/
structure HybridStatement (ε : Type) where
  args : List (Arg ε)
  queryParam : Nat
  vecParam : Nat
  fts : List Clause
  vec : List Clause
  limitParam : Nat

/-- `searchHybridRRF`. -/
def searchHybridRRF {ε : Type} (query : String) (embedding : ε) (chatJid : String) (limit : Int) :
    HybridStatement ε :=
  let (queryParam, args) := addArg [] (.text query)
  let (vecParam, args) := addArg args (.vector embedding)
  let (chatFilter, chatFilterVec, args) : List Clause × List Clause × List (Arg ε) :=
    if chatJid ≠ "" then
      let (cp, args) := addArg args (.text chatJid)
      ([.andIs (.chatIs cp)], [.andIs (.chatIs cp)], args)
    else ([], [], args)
  let (limitParam, args) := addArg args (.bigint limit)
  { args := args, queryParam := queryParam, vecParam := vecParam
    fts := [.fromTable, .whereIs (.found queryParam)] ++ chatFilter ++ [.limit (.count 100)]
    vec := [.fromTable] ++ chatFilterVec ++ [.orderBy, .limit (.count 100)]
    limitParam := limitParam }

/-- A statement for one signal. -/
structure SingleStatement (ε : Type) where
  args : List (Arg ε)
  signalParam : Nat
  clauses : List Clause

/-- `searchFTSOnly`. -/
def searchFTSOnly {ε : Type} (query chatJid : String) (limit : Int) : SingleStatement ε :=
  let (queryParam, args) := addArg [] (.text query)
  let (chatFilter, args) : List Clause × List (Arg ε) :=
    if chatJid ≠ "" then
      let (cp, args) := addArg args (.text chatJid)
      ([.andIs (.chatIs cp)], args)
    else ([], args)
  let (limitParam, args) := addArg args (.bigint limit)
  ⟨args, queryParam, [.fromTable, .whereIs (.found queryParam)] ++ chatFilter ++
    [.orderBy, .limit (.param limitParam)]⟩

/-- `searchVectorOnly`. -/
def searchVectorOnly {ε : Type} (embedding : ε) (chatJid : String) (limit : Int) :
    SingleStatement ε :=
  let (vecParam, args) := addArg [] (.vector embedding)
  let (chatFilter, args) : List Clause × List (Arg ε) :=
    if chatJid ≠ "" then
      let (cp, args) := addArg args (.text chatJid)
      ([.andIs (.chatIs cp)], args)
    else ([], args)
  let (limitParam, args) := addArg args (.bigint limit)
  ⟨args, vecParam, [.fromTable, .whereIs .always] ++ chatFilter ++
    [.orderBy, .limit (.param limitParam)]⟩

/-- What a search sends. -/
inductive SearchStatement (ε : Type) where
  | hybrid (statement : HybridStatement ε)
  | ftsOnly (statement : SingleStatement ε)
  | vectorOnly (statement : SingleStatement ε)

/-- `SearchHybrid`, up to the statement that it sends; an embedding without numbers is
`none`. -/
def searchHybrid {ε : Type} (query : String) (embedding : Option ε) (chatJid : String)
    (limit : Int) : Option (SearchStatement ε) :=
  let limit := if limit ≤ 0 then 20 else limit
  match embedding with
  | some embedding =>
    if query ≠ "" then some (.hybrid (searchHybridRRF query embedding chatJid limit))
    else some (.vectorOnly (searchVectorOnly embedding chatJid limit))
  | none => if query ≠ "" then some (.ftsOnly (searchFTSOnly query chatJid limit)) else none

/-- The statement for both signals parses exactly without a chat filter. -/
theorem parse_hybrid {ε : Type} (query : String) (embedding : ε) (chatJid : String) (limit : Int) :
    (parseSelect (searchHybridRRF query embedding chatJid limit).vec).isSome ↔ chatJid = "" := by
  unfold searchHybridRRF
  by_cases hchat : chatJid = ""
  · subst hchat
    exact ⟨fun _ => rfl, fun _ => rfl⟩
  · simp only [ne_eq, hchat, not_false_eq_true, if_true, iff_false]
    exact nofun

/-! ## The server -/

/-- What the statements leave to the server. -/
structure SearchServer (ε ρ δ : Type) where
  /-- `content_fts @@ plainto_tsquery('simple', query)` -/
  found : String → StoredMessage → Bool
  /-- `ts_rank(content_fts, plainto_tsquery('simple', query))` -/
  tsRank : String → StoredMessage → ρ
  /-- `ts_headline('simple', content, …)` -/
  headline : String → StoredMessage → String
  /-- `embedding <=> query` -/
  distance : ε → ε → δ
  /-- `1.0/(60.0+rn)`, with the digits that a division keeps. -/
  reciprocal : Nat → ℚ
  rounds : Fusion.Rounds 60 100 reciprocal
  /-- Rows leave a window in its order. -/
  windowOrder : Bool
  /-- A scan by distance reads every row. -/
  exactScan : Bool

/-- `match_type`. -/
inductive MatchType where
  | fts
  | semantic
  | both
  deriving DecidableEq, Repr

/-- `SearchResult`; the score before its conversion. -/
structure SearchResult where
  id : String
  chatJid : String
  content : String
  timestamp : Int
  senderName : String
  score : ℚ
  snippet : String
  matchType : MatchType

def SearchResult.key (r : SearchResult) : String × String := (r.id, r.chatJid)

section Server

variable {ε ρ δ : Type}

/-- The text of a placeholder. -/
def textAt (args : List (Arg ε)) (n : Nat) : Option String :=
  match args[n - 1]? with
  | some (.text value) => some value
  | _ => none

/-- The vector of a placeholder. -/
def vectorAt (args : List (Arg ε)) (n : Nat) : Option ε :=
  match args[n - 1]? with
  | some (.vector value) => some value
  | _ => none

/-- The number of a placeholder. -/
def bigintAt (args : List (Arg ε)) (n : Nat) : Option Int :=
  match args[n - 1]? with
  | some (.bigint value) => some value
  | _ => none

/-- A condition on a row of `messages`. -/
def Cond.onMessage (server : SearchServer ε ρ δ) (args : List (Arg ε)) :
    Cond → Option (StoredMessage → Bool)
  | .found n => (textAt args n).map fun query m => server.found query m
  | .chatIs n => (textAt args n).map fun chatJid m => m.chatJid = chatJid
  | .always => some fun _ => true

/-- A condition on a row of `message_embeddings`, which has no `content_fts`. -/
def Cond.onEmbedding (args : List (Arg ε)) : Cond → Option (EmbeddingRow ε → Bool)
  | .found _ => none
  | .chatIs n => (textAt args n).map fun chatJid e => e.chatJid = chatJid
  | .always => some fun _ => true

/-- The number behind a `LIMIT`; a negative one is an error. -/
def Bound.value (args : List (Arg ε)) : Bound → Option Nat
  | .count n => some n
  | .param n => (bigintAt args n).bind Int.toNat?

/-- A statement with its placeholders filled in. -/
structure HybridPlan (ε : Type) where
  query : String
  embedding : ε
  onMessage : List (StoredMessage → Bool)
  onEmbedding : List (EmbeddingRow ε → Bool)
  ftsLimit : Option Nat
  ftsOrdered : Bool
  vecLimit : Option Nat
  vecOrdered : Bool
  limit : Nat

/-- The server parses the statement and fills in its placeholders. -/
def prepare (server : SearchServer ε ρ δ) (s : HybridStatement ε) : Option (HybridPlan ε) := do
  let fts ← parseSelect s.fts
  let vec ← parseSelect s.vec
  return {
    query := ← textAt s.args s.queryParam
    embedding := ← vectorAt s.args s.vecParam
    onMessage := ← fts.conds.mapM (Cond.onMessage server s.args)
    onEmbedding := ← vec.conds.mapM (Cond.onEmbedding s.args)
    ftsLimit := ← fts.bound.mapM (Bound.value s.args)
    ftsOrdered := fts.ordered
    vecLimit := ← vec.bound.mapM (Bound.value s.args)
    vecOrdered := vec.ordered
    limit := ← (bigintAt s.args s.limitParam).bind Int.toNat? }

/-- The first rows, where there is a `LIMIT`. -/
def limited {α : Type} : Option Nat → List α → List α
  | some n, rows => rows.take n
  | none, rows => rows

/-- What leaves a window under a `LIMIT`: the first rows where they are in order, and
without an `ORDER BY` any of them where the server promises no order. -/
def HandsOut {α : Type} (server : SearchServer ε ρ δ) (ordered : Bool) (bound : Option Nat)
    (rows out : List α) : Prop :=
  if ordered || server.windowOrder then out = limited bound rows
  else out.length = (limited bound rows).length ∧ out.Subperm rows

/-- What a scan by distance reads. -/
def Scans {α : Type} (server : SearchServer ε ρ δ) (rows scanned : List α) : Prop :=
  if server.exactScan then scanned = rows else scanned.Sublist rows

/-- A row of `combined`. -/
abbrev CombinedRow (ε : Type) := Joined (StoredMessage × Nat) (EmbeddingRow ε × Nat)

/-- `COALESCE(f.id, v.id)` and `COALESCE(f.chat_jid, v.chat_jid)`. -/
def combinedKey : CombinedRow ε → String × String := Joined.key (fun a => a.1.key) fun b => b.1.key

/-- `match_type` of a row of `combined`. -/
def combinedType : CombinedRow ε → MatchType
  | .both _ _ => .both
  | .left _ => .fts
  | .right _ => .semantic

/-- `COALESCE(f.snippet, '')`. -/
def combinedSnippet (server : SearchServer ε ρ δ) (query : String) : CombinedRow ε → String
  | .both a _ | .left a => server.headline query a.1
  | .right _ => ""

/-- A row of the result, from a row of `combined` and its message. -/
def searchResult (server : SearchServer ε ρ δ) (query : String) (c : CombinedRow ε)
    (m : StoredMessage) : SearchResult where
  id := (combinedKey c).1
  chatJid := (combinedKey c).2
  content := m.content
  timestamp := m.timestamp
  senderName := m.senderName
  score := c.weigh server.reciprocal
  snippet := combinedSnippet server query c
  matchType := combinedType c

/-- `combined c JOIN messages m`. -/
def joinMessages (server : SearchServer ε ρ δ) (db : SearchTables ε) (query : String)
    (combined : List (CombinedRow ε)) : List SearchResult :=
  combined.flatMap fun c =>
    (db.messages.rows.filter fun m => m.key = combinedKey c).map (searchResult server query c)

/-- An execution: `fts_results`, `vec_results` and the result. -/
structure SearchExecution (ε : Type) where
  fts : List (StoredMessage × Nat)
  vec : List (EmbeddingRow ε × Nat)
  results : List SearchResult

/-- `ts_rank … DESC`. -/
def byRank (server : SearchServer ε ρ δ) (query : String) (m : StoredMessage) : ρᵒᵈ :=
  OrderDual.toDual (server.tsRank query m)

/-- `embedding <=> …`. -/
def byDistance (server : SearchServer ε ρ δ) (embedding : ε) (e : EmbeddingRow ε) : δ :=
  server.distance e.embedding embedding

variable [LinearOrder ρ] [LinearOrder δ]

/-- What the server makes of a statement. -/
structure Executes (server : SearchServer ε ρ δ) (db : SearchTables ε) (plan : HybridPlan ε)
    (e : SearchExecution ε) : Prop where
  fts : ∃ ranked : List StoredMessage,
    ranked.Perm (db.messages.rows.filter fun m => plan.onMessage.all (· m)) ∧
    Paging.Sorted (byRank server plan.query) ranked ∧
    HandsOut server plan.ftsOrdered plan.ftsLimit (numbered ranked) e.fts
  vec : ∃ scanned near : List (EmbeddingRow ε),
    Scans server (db.embeddings.rows.filter fun e => plan.onEmbedding.all (· e)) scanned ∧
    near.Perm scanned ∧ Paging.Sorted (byDistance server plan.embedding) near ∧
    HandsOut server plan.vecOrdered plan.vecLimit (numbered near) e.vec
  results : ∃ sorted : List SearchResult,
    sorted.Perm (joinMessages server db plan.query
      (fullOuterJoin (fun a => a.1.key) (fun b => b.1.key) e.fts e.vec)) ∧
    sorted.Pairwise (fun r r' => r'.score ≤ r.score) ∧ e.results = sorted.take plan.limit

end Server

/-! ## Rank fusion -/

section Spec

variable {ε ρ δ : Type}

/-- The row is one of the chat, where one is given. -/
def inChat (chatJid jid : String) : Bool := chatJid = "" || jid = chatJid

/-- The messages that the full-text signal may name. -/
def ftsCandidates (server : SearchServer ε ρ δ) (db : SearchTables ε) (query chatJid : String) :
    List StoredMessage :=
  db.messages.rows.filter fun m => server.found query m && inChat chatJid m.chatJid

/-- The embeddings that the semantic signal may name. -/
def vecCandidates (db : SearchTables ε) (chatJid : String) : List (EmbeddingRow ε) :=
  db.embeddings.rows.filter fun e => inChat chatJid e.chatJid

/-- The keys of messages are compared with `=`. -/
local instance lawfulKey : LawfulBEq (String × String) := inferInstance

/-- The signals in which a key is a candidate. -/
def signalsOf (f v : List (String × String)) (k : String × String) : MatchType :=
  if k ∈ f then if k ∈ v then .both else .fts else .semantic

variable [LinearOrder ρ] [LinearOrder δ]

/-- The execution is the fusion of the best hundred candidates of each signal. -/
structure Fuses (server : SearchServer ε ρ δ) (db : SearchTables ε) (query : String) (embedding : ε)
    (chatJid : String) (limit : Nat) (e : SearchExecution ε) (f : List StoredMessage)
    (v : List (EmbeddingRow ε)) : Prop where
  ftsBest : Paging.Page (byRank server query) 100 (ftsCandidates server db query chatJid) f
  vecBest : Paging.Page (byDistance server embedding) 100 (vecCandidates db chatJid) v
  fts : e.fts.Perm (numbered f)
  vec : e.vec.Perm (numbered v)
  fused : Fused 60 (f.map (·.key)) (v.map EmbeddingRow.key) limit (e.results.map SearchResult.key)
  signals : ∀ r ∈ e.results, r.matchType = signalsOf (f.map (·.key)) (v.map EmbeddingRow.key) r.key
  stored : ∀ r ∈ e.results, ∃ m, db.messages.lookup r.key = some m ∧ r.content = m.content ∧
    r.timestamp = m.timestamp ∧ r.senderName = m.senderName

/-- A search with both signals sends a valid statement, and every execution of it is a
rank fusion. -/
def IsRankFusion (server : SearchServer ε ρ δ) (db : SearchTables ε) (query : String)
    (embedding : ε) (chatJid : String) (limit : Int) : Prop :=
  ∃ s plan, searchHybrid query (some embedding) chatJid limit = some (.hybrid s) ∧
    prepare server s = some plan ∧ (∃ e, Executes server db plan e) ∧
    ∀ e, Executes server db plan e → ∃ f v,
      Fuses server db query embedding chatJid (if limit ≤ 0 then 20 else limit.toNat) e f v

end Spec

/-! ## The statement without a chat filter -/

section Plan

variable {ε ρ δ : Type} {server : SearchServer ε ρ δ} {db : SearchTables ε} {query : String}
  {embedding : ε} {limit : Nat}

/-- The prepared statement without a chat filter. -/
def hybridPlan (server : SearchServer ε ρ δ) (query : String) (embedding : ε) (limit : Nat) :
    HybridPlan ε where
  query := query
  embedding := embedding
  onMessage := [fun m => server.found query m]
  onEmbedding := []
  ftsLimit := some 100
  ftsOrdered := false
  vecLimit := some 100
  vecOrdered := true
  limit := limit

theorem prepare_hybrid : prepare server (searchHybridRRF query embedding "" (limit : Int)) =
    some (hybridPlan server query embedding limit) := rfl

theorem prepare_filtered {chatJid : String} {n : Int} (hchat : chatJid ≠ "") :
    prepare server (searchHybridRRF query embedding chatJid n) = none := by
  have hparse : parseSelect (searchHybridRRF query embedding chatJid n).vec = none := by
    rw [← Option.not_isSome_iff_eq_none, parse_hybrid]
    exact hchat
  unfold prepare
  rw [hparse]
  cases parseSelect (searchHybridRRF query embedding chatJid n).fts <;> rfl

theorem onMessage_hybrid : (db.messages.rows.filter fun m =>
    (hybridPlan server query embedding limit).onMessage.all (· m)) = ftsCandidates server db query "" := by
  refine List.filter_congr fun m _ => ?_
  simp [hybridPlan, inChat]

theorem onEmbedding_hybrid : (db.embeddings.rows.filter fun e =>
    (hybridPlan server query embedding limit).onEmbedding.all (· e)) = vecCandidates db "" := by
  refine List.filter_congr fun e _ => ?_
  simp [hybridPlan, inChat]

variable [LinearOrder ρ] [LinearOrder δ]

omit [LinearOrder δ] in
/-- The full-text rows that are handed out are the best ones. -/
theorem fts_best {ranked : List StoredMessage} {out : List (StoredMessage × Nat)}
    (hranked : ranked.Perm (ftsCandidates server db query ""))
    (hsorted : Paging.Sorted (byRank server query) ranked)
    (hout : HandsOut server false (some 100) (numbered ranked) out)
    (hfew : server.windowOrder = true ∨ (ftsCandidates server db query "").length ≤ 100) :
    Paging.Page (byRank server query) 100 (ftsCandidates server db query "") (ranked.take 100) ∧
      out.Perm (numbered (ranked.take 100)) := by
  refine ⟨⟨ranked, hranked, hsorted, rfl⟩, ?_⟩
  rw [← take_numbered]
  unfold HandsOut at hout
  by_cases horder : server.windowOrder = true
  · rw [horder, Bool.or_true, if_pos rfl] at hout
    exact .of_eq hout
  · have hlength := hfew.resolve_left horder
    rw [Bool.not_eq_true] at horder
    rw [horder, Bool.or_false, if_neg Bool.false_ne_true] at hout
    have hall : (numbered ranked).take 100 = numbered ranked := by
      refine List.take_of_length_le ?_
      rw [numbered, List.length_zipIdx, hranked.length_eq]
      exact hlength
    rw [limited, hall] at hout
    rw [hall]
    exact hout.2.perm_of_length_le hout.1.ge

omit [LinearOrder ρ] in
theorem vec_best {scanned near : List (EmbeddingRow ε)} {out : List (EmbeddingRow ε × Nat)}
    (hscanned : Scans server (vecCandidates db "") scanned) (hnear : near.Perm scanned)
    (hsorted : Paging.Sorted (byDistance server embedding) near)
    (hout : HandsOut server true (some 100) (numbered near) out)
    (hexact : server.exactScan = true ∨ db.embeddings.rows = []) :
    Paging.Page (byDistance server embedding) 100 (vecCandidates db "") (near.take 100) ∧
      out.Perm (numbered (near.take 100)) := by
  have hall : scanned = vecCandidates db "" := by
    unfold Scans at hscanned
    by_cases hscan : server.exactScan = true
    · rwa [if_pos hscan] at hscanned
    · have hnone : vecCandidates db "" = [] := by
        unfold vecCandidates
        rw [hexact.resolve_left hscan]
        rfl
      rw [if_neg hscan, hnone] at hscanned
      rw [hnone]
      exact List.sublist_nil.mp hscanned
  refine ⟨⟨near, hall ▸ hnear, hsorted, rfl⟩, ?_⟩
  rw [← take_numbered]
  unfold HandsOut at hout
  rw [Bool.true_or, if_pos rfl] at hout
  exact .of_eq hout

end Plan

/-! ## The fused rows -/

section Rows

variable {ε ρ δ : Type} {server : SearchServer ε ρ δ} {db : SearchTables ε} {query : String}
  {f : List StoredMessage} {v : List (EmbeddingRow ε)} {l : List (StoredMessage × Nat)}
  {r : List (EmbeddingRow ε × Nat)} {c : CombinedRow ε}

/-- The rows of `combined`. -/
abbrev combine (l : List (StoredMessage × Nat)) (r : List (EmbeddingRow ε × Nat)) :
    List (CombinedRow ε) :=
  fullOuterJoin (fun a => a.1.key) (fun b => b.1.key) l r

theorem mem_numbered {α : Type} {rows : List α} {a : α × Nat} (h : a ∈ numbered rows) :
    a.1 ∈ rows := by
  obtain ⟨row, place⟩ := a
  have hget := List.mem_zipIdx h
  rw [hget.2.2]
  exact List.getElem_mem _

/-- Every row of `combined` has its message. -/
theorem stored_of_combined (hf : f ⊆ db.messages.rows) (hv : v ⊆ db.embeddings.rows)
    (hl : l.Perm (numbered f)) (hr : r.Perm (numbered v)) (hc : c ∈ combine l r) :
    ∃ m, db.messages.lookup (combinedKey c) = some m := by
  have hleft : ∀ a ∈ l, ∃ m, db.messages.lookup a.1.key = some m := fun a ha =>
    ⟨a.1, Table.lookup_of_mem (hf (mem_numbered (hl.subset ha)))⟩
  have hright : ∀ b ∈ r, ∃ m, db.messages.lookup b.1.key = some m := fun b hb =>
    db.references b.1 (hv (mem_numbered (hr.subset hb)))
  obtain ⟨a, ha, b, -, -, rfl⟩ | ⟨a, ha, -, rfl⟩ | ⟨b, hb, -, rfl⟩ := Fusion.mem_fullOuterJoin.mp hc
  · exact hleft a ha
  · exact hleft a ha
  · exact hright b hb

/-- The type of a row of `combined` names its signals. -/
theorem combinedType_eq (hl : l.Perm (numbered f)) (hr : r.Perm (numbered v))
    (hc : c ∈ combine l r) :
    combinedType c = signalsOf (f.map (·.key)) (v.map EmbeddingRow.key) (combinedKey c) := by
  have hleft : ∀ k, k ∈ f.map (·.key) ↔ ∃ a ∈ l, a.1.key = k := fun k => by
    rw [← Fusion.numbered_keys (fun m : StoredMessage => m.key) f, ← (hl.map _).mem_iff, List.mem_map]
  have hright : ∀ k, k ∈ v.map EmbeddingRow.key ↔ ∃ b ∈ r, b.1.key = k := fun k => by
    rw [← Fusion.numbered_keys EmbeddingRow.key v, ← (hr.map _).mem_iff, List.mem_map]
  obtain ⟨a, ha, b, hb, hkey, rfl⟩ | ⟨a, ha, hnone, rfl⟩ | ⟨b, hb, hnone, rfl⟩ :=
    Fusion.mem_fullOuterJoin.mp hc
  · have hmem : combinedKey (.both a b) ∈ f.map (·.key) := (hleft _).mpr ⟨a, ha, rfl⟩
    have hmem' : combinedKey (.both a b) ∈ v.map EmbeddingRow.key := (hright _).mpr ⟨b, hb, hkey⟩
    rw [signalsOf, if_pos hmem, if_pos hmem']
    rfl
  · have hmem : combinedKey (ε := ε) (.left a) ∈ f.map (·.key) := (hleft _).mpr ⟨a, ha, rfl⟩
    have hmem' : combinedKey (ε := ε) (.left a) ∉ v.map EmbeddingRow.key := by
      rw [hright]
      exact fun h => h.elim fun b hb => hnone b hb.1 hb.2
    rw [signalsOf, if_pos hmem, if_neg hmem']
    rfl
  · have hmem : combinedKey (.right b) ∉ f.map (·.key) := by
      rw [hleft]
      exact fun h => h.elim fun a ha => hnone a ha.1 ha.2
    rw [signalsOf, if_neg hmem]
    rfl

/-- A row of the result comes from a row of `combined`. -/
theorem mem_joinMessages {combined : List (CombinedRow ε)} {result : SearchResult} :
    result ∈ joinMessages server db query combined ↔
      ∃ c ∈ combined, ∃ m, db.messages.lookup (combinedKey c) = some m ∧
        result = searchResult server query c m := by
  simp only [joinMessages, List.mem_flatMap, List.mem_map, List.mem_filter, decide_eq_true_eq,
    Table.lookup_eq_some]
  constructor
  · intro h
    obtain ⟨c, hc, m, hm, rfl⟩ := h
    exact ⟨c, hc, m, hm, rfl⟩
  · intro h
    obtain ⟨c, hc, m, hm, rfl⟩ := h
    exact ⟨c, hc, m, hm, rfl⟩

/-- The join with the messages keeps the keys and the scores. -/
theorem joinMessages_pairs {combined : List (CombinedRow ε)}
    (hstored : ∀ c ∈ combined, ∃ m, db.messages.lookup (combinedKey c) = some m) :
    (joinMessages server db query combined).map (fun result => (result.key, result.score)) =
      combined.map fun c => (combinedKey c, c.weigh server.reciprocal) := by
  rw [joinMessages, List.map_flatMap]
  refine Eq.trans (List.flatMap_congr fun c hc => ?_) (List.flatMap_pure_eq_map _ _)
  obtain ⟨m, hm⟩ := hstored c hc
  rw [Table.filter_key hm]
  rfl

theorem handsOut_limited {α : Type} (ordered : Bool) (n : Nat) (rows : List α) :
    HandsOut server ordered (some n) rows (rows.take n) := by
  unfold HandsOut
  split
  · rfl
  · exact ⟨rfl, (List.take_sublist ..).subperm⟩

theorem scans_all {α : Type} (rows : List α) : Scans server rows rows := by
  unfold Scans
  split
  · rfl
  · exact List.Sublist.refl rows

end Rows

/-! ## Executions -/

section Executions

variable {ε ρ δ : Type} [LinearOrder ρ] [LinearOrder δ] {server : SearchServer ε ρ δ}
  {db : SearchTables ε} {query : String} {embedding : ε} {limit : Nat} {e : SearchExecution ε}

/-- The fusion of the best candidates. -/
theorem fuses_of_best {plan : HybridPlan ε} {f : List StoredMessage} {v : List (EmbeddingRow ε)}
    (hf : Paging.Page (byRank server query) 100 (ftsCandidates server db query "") f)
    (hv : Paging.Page (byDistance server embedding) 100 (vecCandidates db "") v)
    (hl : e.fts.Perm (numbered f)) (hr : e.vec.Perm (numbered v))
    (hexec : Executes server db plan e) (hquery : plan.query = query) (hlimit : plan.limit = limit) :
    Fuses server db query embedding "" limit e f v := by
  have hfrows : f ⊆ db.messages.rows := fun m hm => (List.mem_filter.mp (hf.subset hm)).1
  have hvrows : v ⊆ db.embeddings.rows := fun b hb => (List.mem_filter.mp (hv.subset hb)).1
  have hfkeys : (f.map (·.key)).Nodup :=
    hf.keys_nodup (db.messages.unique.sublist (List.filter_sublist.map _))
  have hvkeys : (v.map EmbeddingRow.key).Nodup :=
    hv.keys_nodup (db.embeddings.unique.sublist (List.filter_sublist.map _))
  have hstored : ∀ c ∈ combine e.fts e.vec, ∃ m, db.messages.lookup (combinedKey c) = some m :=
    fun c hc => stored_of_combined hfrows hvrows hl hr hc
  obtain ⟨sorted, hsorted, hscores, hresults⟩ := hexec.results
  rw [hquery] at hsorted
  rw [hlimit] at hresults
  have hpairs := (hsorted.map fun result => (result.key, result.score)).trans
    (.of_eq (joinMessages_pairs hstored))
  have hmem : ∀ result ∈ e.results, ∃ c ∈ combine e.fts e.vec, ∃ m,
      db.messages.lookup (combinedKey c) = some m ∧ result = searchResult server query c m := by
    intro result hresult
    rw [hresults] at hresult
    exact mem_joinMessages.mp (hsorted.subset (List.mem_of_mem_take hresult))
  refine ⟨hf, hv, hl, hr, ?_, fun result hresult => ?_, fun result hresult => ?_⟩
  · rw [hresults]
    exact Fusion.fused_of_join (n := 100) hfkeys hvkeys (hf.length_eq ▸ min_le_left _ _)
      (hv.length_eq ▸ min_le_left _ _) (by decide) (by decide) server.rounds hl hr hpairs hscores
  · obtain ⟨c, hc, m, -, rfl⟩ := hmem result hresult
    exact combinedType_eq hl hr hc
  · obtain ⟨c, -, m, hm, rfl⟩ := hmem result hresult
    exact ⟨m, hm, rfl, rfl, rfl⟩

/-- Lists that are handed out complete to an execution. -/
theorem executes_of_lists {plan : HybridPlan ε} {fts : List (StoredMessage × Nat)}
    {vec : List (EmbeddingRow ε × Nat)} {ranked : List StoredMessage}
    {scanned near : List (EmbeddingRow ε)}
    (hranked : ranked.Perm (db.messages.rows.filter fun m => plan.onMessage.all (· m)))
    (hbest : Paging.Sorted (byRank server plan.query) ranked)
    (hfts : HandsOut server plan.ftsOrdered plan.ftsLimit (numbered ranked) fts)
    (hscanned : Scans server (db.embeddings.rows.filter fun e => plan.onEmbedding.all (· e)) scanned)
    (hnear : near.Perm scanned) (hclose : Paging.Sorted (byDistance server plan.embedding) near)
    (hvec : HandsOut server plan.vecOrdered plan.vecLimit (numbered near) vec) :
    ∃ results, Executes server db plan ⟨fts, vec, results⟩ := by
  let rows := joinMessages server db plan.query (combine fts vec)
  let sorted := Paging.sort (fun r : SearchResult => OrderDual.toDual r.score) rows
  refine ⟨sorted.take plan.limit, ⟨ranked, hranked, hbest, hfts⟩,
    ⟨scanned, near, hscanned, hnear, hclose, hvec⟩, sorted, Paging.sort_perm .., ?_, rfl⟩
  exact Paging.sort_sorted (fun r : SearchResult => OrderDual.toDual r.score) rows

/-- The lists of an execution without a chat filter. -/
theorem lists_of_executes (h : Executes server db (hybridPlan server query embedding limit) e) :
    ∃ (ranked : List StoredMessage) (scanned near : List (EmbeddingRow ε)),
      ranked.Perm (ftsCandidates server db query "") ∧ Paging.Sorted (byRank server query) ranked ∧
      HandsOut server false (some 100) (numbered ranked) e.fts ∧
      Scans server (vecCandidates db "") scanned ∧ near.Perm scanned ∧
      Paging.Sorted (byDistance server embedding) near ∧
      HandsOut server true (some 100) (numbered near) e.vec := by
  obtain ⟨ranked, hranked, hbest, hfts⟩ := h.fts
  obtain ⟨scanned, near, hscanned, hnear, hclose, hvec⟩ := h.vec
  rw [onMessage_hybrid] at hranked
  rw [onEmbedding_hybrid] at hscanned
  exact ⟨ranked, scanned, near, hranked, hbest, hfts, hscanned, hnear, hclose, hvec⟩

/-- Lists without a chat filter complete to an execution. -/
theorem executes_hybrid {fts : List (StoredMessage × Nat)} {vec : List (EmbeddingRow ε × Nat)}
    {scanned : List (EmbeddingRow ε)}
    (hfts : HandsOut server false (some 100)
      (numbered (Paging.sort (byRank server query) (ftsCandidates server db query ""))) fts)
    (hscanned : Scans server (vecCandidates db "") scanned)
    (hvec : HandsOut server true (some 100)
      (numbered (Paging.sort (byDistance server embedding) scanned)) vec) :
    ∃ results, Executes server db (hybridPlan server query embedding limit) ⟨fts, vec, results⟩ :=
  executes_of_lists (by rw [onMessage_hybrid]; exact Paging.sort_perm ..) (Paging.sort_sorted ..) hfts
    (by rw [onEmbedding_hybrid]; exact hscanned) (Paging.sort_perm ..) (Paging.sort_sorted ..) hvec

/-- Every statement without a chat filter has an execution. -/
theorem exists_execution : ∃ e, Executes server db (hybridPlan server query embedding limit) e := by
  obtain ⟨results, hexec⟩ : ∃ results, Executes server db (hybridPlan server query embedding limit)
      ⟨_, _, results⟩ :=
    executes_hybrid (handsOut_limited false 100 _) (scans_all _) (handsOut_limited true 100 _)
  exact ⟨_, hexec⟩

/-- Without an order the best match may be left out. -/
theorem windowOrder_of_fuses (h : ∀ e, Executes server db (hybridPlan server query embedding limit) e →
      ∃ f v, Fuses server db query embedding "" limit e f v) :
    server.windowOrder = true ∨ (ftsCandidates server db query "").length ≤ 100 := by
  by_contra hnone
  rw [not_or, not_le, Bool.not_eq_true] at hnone
  obtain ⟨horder, hmany⟩ := hnone
  let ranked := Paging.sort (byRank server query) (ftsCandidates server db query "")
  have hlength : ranked.length = (ftsCandidates server db query "").length :=
    (Paging.sort_perm ..).length_eq
  have hfts : HandsOut server false (some 100) (numbered ranked) (((numbered ranked).drop 1).take 100) := by
    unfold HandsOut
    rw [horder, Bool.or_false, if_neg Bool.false_ne_true]
    refine ⟨?_, ((List.take_sublist ..).trans (List.drop_sublist ..)).subperm⟩
    simp only [limited, List.length_take, List.length_drop, numbered, List.length_zipIdx]
    omega
  obtain ⟨results, hexec⟩ := executes_hybrid hfts (scans_all _) (handsOut_limited true 100 _)
  obtain ⟨f, v, hfuses⟩ := h _ hexec
  have hfull : f.length = 100 := by
    rw [hfuses.ftsBest.length_eq]
    omega
  -- the first place is among the best and not in the list
  cases hf : f with
  | nil => simp [hf] at hfull
  | cons m rest =>
    have hfirst : (m, 1) ∈ numbered f := by
      rw [hf]
      exact List.mem_cons_self
    have hmem : (m, 1) ∈ (numbered ranked).drop 1 := List.mem_of_mem_take (hfuses.fts.symm.subset hfirst)
    cases hranked : ranked with
    | nil => simp [hranked, numbered] at hmem
    | cons m' others =>
      rw [hranked] at hmem
      have hplace := (List.mem_zipIdx (show (m, 1) ∈ others.zipIdx 2 from hmem)).1
      omega

/-- An approximate scan may find nothing. -/
theorem exactScan_of_fuses (h : ∀ e, Executes server db (hybridPlan server query embedding limit) e →
      ∃ f v, Fuses server db query embedding "" limit e f v) :
    server.exactScan = true ∨ db.embeddings.rows = [] := by
  by_contra hnone
  rw [not_or, Bool.not_eq_true] at hnone
  obtain ⟨hscan, hrows⟩ := hnone
  have hscanned : Scans server (vecCandidates db "") [] := by
    unfold Scans
    rw [hscan, if_neg Bool.false_ne_true]
    exact List.nil_sublist _
  obtain ⟨results, hexec⟩ := executes_hybrid (handsOut_limited false 100 _) hscanned (handsOut_limited true 100 _)
  obtain ⟨f, v, hfuses⟩ := h _ hexec
  have hempty : v.length = 0 := by
    have := hfuses.vec.length_eq
    simpa [numbered, Paging.sort] using this.symm
  rw [hfuses.vecBest.length_eq] at hempty
  have hall : vecCandidates db "" = db.embeddings.rows := List.filter_eq_self.mpr fun _ _ => by simp [inChat]
  rw [hall] at hempty
  have hpositive : 0 < db.embeddings.rows.length := List.length_pos_iff.mpr hrows
  omega

/-- A search with both signals is a rank fusion exactly without a chat filter, when the
best matches are handed out and every embedding is read. -/
theorem searchHybrid_iff {chatJid : String} {limit : Int} (hquery : query ≠ "") :
    IsRankFusion server db query embedding chatJid limit ↔ chatJid = "" ∧
      (server.windowOrder = true ∨ (ftsCandidates server db query "").length ≤ 100) ∧
      (server.exactScan = true ∨ db.embeddings.rows = []) := by
  have hsends : searchHybrid query (some embedding) chatJid limit = some (.hybrid
      (searchHybridRRF query embedding chatJid ((if limit ≤ 0 then 20 else limit.toNat : Nat) : Int))) := by
    unfold searchHybrid
    simp only [ne_eq, hquery, not_false_eq_true, if_true]
    congr 3
    split
    · rfl
    · omega
  constructor
  · intro h
    obtain ⟨s, plan, hs, hplan, -, hall⟩ := h
    cases hsends.symm.trans hs
    by_cases hchat : chatJid = ""
    · subst hchat
      cases prepare_hybrid.symm.trans hplan
      exact ⟨rfl, windowOrder_of_fuses hall, exactScan_of_fuses hall⟩
    · rw [prepare_filtered hchat] at hplan
      cases hplan
  · intro h
    obtain ⟨rfl, hfew, hexact⟩ := h
    refine ⟨_, _, hsends, prepare_hybrid, ?_, fun e hexec => ?_⟩
    · exact exists_execution
    · obtain ⟨ranked, scanned, near, hranked, hbest, hfts, hscanned, hnear, hclose, hvec⟩ :=
        lists_of_executes hexec
      obtain ⟨hf, hl⟩ := fts_best hranked hbest hfts hfew
      obtain ⟨hv, hr⟩ := vec_best hscanned hnear hclose hvec hexact
      exact ⟨_, _, fuses_of_best hf hv hl hr hexec rfl rfl⟩

end Executions

/-! ## A sample search -/

/-- A server that keeps the order of a window and reads every embedding; every message
matches, and an embedding is a number. -/
def sampleServer : SearchServer Nat Nat Nat where
  found _ _ := true
  tsRank _ m := m.content.length
  headline _ m := m.content
  distance a b := (a - b) + (b - a)
  reciprocal rn := 1 / ((60 + rn : Nat) : ℚ)
  rounds := fun place _ => by simp
  windowOrder := true
  exactScan := true

/-- One message with its embedding. -/
def sampleSearch : SearchTables Nat where
  messages := ⟨[sampleMessage.stored false], by simp⟩
  embeddings := ⟨[⟨sampleMessage.id, sampleMessage.chatJid, 7⟩], by simp⟩
  references := by
    intro e he
    rw [List.mem_singleton.mp he]
    exact ⟨sampleMessage.stored false, rfl⟩

/-- A search without a chat filter. -/
theorem searchHybrid_iff_of_sampleSearch :
    IsRankFusion sampleServer sampleSearch "hello" 5 "" 10 :=
  (searchHybrid_iff (show "hello" ≠ "" by decide)).mpr ⟨rfl, .inl rfl, .inl rfl⟩

/-- A search with a chat filter sends a statement that does not parse. -/
theorem searchHybrid_fails_of_sampleSearch :
    ¬ ∀ query chatJid limit, query ≠ "" →
      IsRankFusion sampleServer sampleSearch query 5 chatJid limit := by
  intro hall
  obtain ⟨s, plan, hs, hplan, -⟩ := hall "hello" "15@lid" 10 (by decide)
  cases hs
  rw [prepare_filtered (show "15@lid" ≠ "" by decide)] at hplan
  cases hplan

end WhatsAppMcp.Bridge.Store
