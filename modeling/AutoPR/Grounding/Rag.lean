import AutoPR.Library.Python
import AutoPR.Library.Transition
import AutoPR.Library.Upsert

/-! The chunks of repositories in one Qdrant collection. A chunk's id comes from its file and its
lines; its repository stands in the payload only, where a search can filter by it. -/
namespace AutoPR.Grounding
open Python Transition Upsert

structure RepoChunk where
  filePath : String
  content : String
  startLine : ℕ
  endLine : ℕ

structure Payload where
  repo : String
  filePath : String
  content : String
  startLine : ℕ
  endLine : ℕ
deriving DecidableEq

structure Point (Id Vec : Type) where
  id : Id
  vector : Vec
  payload : Payload

/-- The libraries: UUIDs, taken to be injective, the splitter, the embedding, and the order by
similarity that a search puts points into. -/
structure Libraries (Id Vec : Type) where
  uuid5 : String → Id
  uuid5_injective : Function.Injective uuid5
  splitText : String → List String
  embed : String → Vec
  rank : Vec → List (Point Id Vec) → List (Point Id Vec)
  rank_perm : ∀ v points, (rank v points).Perm points

/-- The points by their ids. -/
abbrev Collection (Id Vec : Type) := Store (Point.id : Point Id Vec → Id)

/-- A repository's name; a delivery without one makes no job. -/
structure RepoName where
  name : String
  named : name ≠ ""
deriving DecidableEq

/-- The value of the context variable inside of `grounding_scope`. -/
def groundingScope (repo : RepoName) : Option String := some repo.name

def spanName (filePath : String) (startLine endLine : ℕ) : String :=
  filePath ++ ":" ++ toString startLine ++ "-" ++ toString endLine

section
variable {Id Vec : Type} (lib : Libraries Id Vec)

def Libraries.chunkId (c : RepoChunk) : Id := lib.uuid5 (spanName c.filePath c.startLine c.endLine)

def Libraries.chunkFile (file : String × String) : List RepoChunk :=
  if strip file.2 = "" then []
  else (lib.splitText file.2).zipIdx.map fun (text, i) => ⟨file.1, text, i * 10 + 1, i * 10 + 1 + 10⟩

def Libraries.point (scope : Option String) (c : RepoChunk) : Point Id Vec where
  id := lib.chunkId c
  vector := lib.embed c.content
  payload := ⟨scope.getD "", c.filePath, c.content, c.startLine, c.endLine⟩

variable [DecidableEq Id]

/-- With the number of chunks that are stored. -/
def Libraries.ingestRepo (scope : Option String) (files : List (String × String))
    (s : Collection Id Vec) : ℕ × Collection Id Vec :=
  let chunks := files.flatMap lib.chunkFile
  if chunks.isEmpty then (0, s)
  else (chunks.length, s.upsert (chunks.map (lib.point scope)))

omit [DecidableEq Id] in
/-- An unset or empty scope does not filter. -/
def Libraries.retrieve (scope : Option String) (query : String) (topK : ℕ)
    (s : Collection Id Vec) : List Payload :=
  let matching :=
    match scope with
    | some repo => if repo ≠ "" then s.items.filter (·.payload.repo = repo) else s.items
    | none => s.items
  ((lib.rank (lib.embed query) matching).take topK).map (·.payload)

/-- What becomes of an ingestion; one that fails may have been applied. -/
inductive Ingestion where
  | done
  | failed (applied : Bool)

def indexedMax : ℕ := 128

abbrev Indexed := List (String × String)

def evict (indexed : Indexed) : Indexed := indexed.drop (indexed.length - indexedMax)

def Libraries.indexSnapshot (repo : RepoName) (ref : String) (snapshot : List (String × String))
    (ingestion : Ingestion) (indexed : Indexed) (s : Collection Id Vec) :
    Indexed × Collection Id Vec :=
  let key := (repo.name, ref)
  if key ∈ indexed then (indexed.erase key ++ [key], s)
  else if snapshot.isEmpty then (indexed, s)
  else
    let after := (lib.ingestRepo (groundingScope repo) snapshot s).2
    match ingestion with
    | .done => (evict (indexed ++ [key]), after)
    | .failed applied => (indexed, if applied then after else s)

end

structure Ingest where
  repo : RepoName
  files : List (String × String)

def ingests {Id Vec : Type} [DecidableEq Id] (lib : Libraries Id Vec) :
    System (Collection Id Vec) Ingest where
  init := .empty
  step s a := some (lib.ingestRepo (groundingScope a.repo) a.files s).2

structure Indexer (Id Vec : Type) where
  collection : Collection Id Vec
  indexed : ℕ → Indexed

inductive IndexAct where
  | index (worker : ℕ) (repo : RepoName) (ref : String) (snapshot : List (String × String))
      (ingestion : Ingestion)
  | restart (worker : ℕ)

def indexers {Id Vec : Type} [DecidableEq Id] (lib : Libraries Id Vec) :
    System (Indexer Id Vec) IndexAct where
  init := ⟨.empty, fun _ => []⟩
  step s
    | .index worker repo ref snapshot ingestion =>
        let (indexed, collection) :=
          lib.indexSnapshot repo ref snapshot ingestion (s.indexed worker) s.collection
        some ⟨collection, Function.update s.indexed worker indexed⟩
    | .restart worker => some { s with indexed := Function.update s.indexed worker [] }

end AutoPR.Grounding
