import Mathlib.Data.List.Sort
import Money.Contracts
import Money.Text

/-! The order of the network work of `qualification/universe_progress.py`: by key, beginning after the candidate that
    was serviced last. -/

namespace Money
open Text

structure CandidateRow where
  trading212Id : String
  isin : Option String
  providerEnrichmentInput : Bool
  deriving DecidableEq

/-- `_key`; an absent identifier is formatted as `None`. -/
def CandidateRow.key (row : CandidateRow) : String := row.trading212Id ++ ":" ++ row.isin.getD "None"

/-- A field of the cursor file: absent or null, a text, or any other value. -/
inductive CursorField where
  | null
  | text (value : String)
  | other
  deriving DecidableEq

structure CursorState where
  version : CursorField
  universePolicyVersion : CursorField
  credentialBindingSha256 : CursorField
  resumeAfter : CursorField
  deriving DecidableEq

/-- What reading the cursor file gives: a `ValueError` or `OSError`, an exception of the parser that is neither, no
    object, or an object. -/
inductive CursorFile where
  | unreadable
  | nested
  | absent
  | state (s : CursorState)
  deriving DecidableEq

def schedulerVersion : String := "money-bulk-round-robin-v1"

def universePolicyVersion : String := "money-t212-gbp-gbx-research-universe-v7"

def bindingField : Option String → CursorField
  | some binding => .text binding
  | none => .null

/-- The key to resume after, where the file is a cursor of this scheduler under this policy and binding. -/
def CursorFile.resumeAfter (binding : Option String) : CursorFile → Except Err (Option String)
  | .nested => .error .recursion
  | .state ⟨version, policy, bound, .text key⟩ =>
    if version = .text schedulerVersion ∧ policy = .text universePolicyVersion ∧ bound = bindingField binding then
      pure (some key)
    else pure none
  | _ => pure none

variable (rows : List CandidateRow)

def keyAt (i : ℕ) : String := (rows[i]?.map CandidateRow.key).getD ""

def enrichmentInputs : List ℕ := (List.range rows.length).filter fun i => rows[i]?.any (·.providerEnrichmentInput)

/-- The candidates of `enrichment_order`, sorted by their keys. -/
def candidates : List ℕ := (enrichmentInputs rows).insertionSort fun i j => before (keyAt rows i) (keyAt rows j) = true

/-- `bisect_right` of keys in order: how many of them are not after `x`. -/
def bisectRight (keys : List String) (x : String) : ℕ := keys.countP (before · x)

def enrichmentOrder (binding : Option String) (replay : Bool) (file : CursorFile) : Except Err (List ℕ) :=
  if replay = true ∨ candidates rows = [] then pure (candidates rows)
  else do
    match ← file.resumeAfter binding with
    | none => pure (candidates rows)
    | some key =>
      let start := bisectRight ((candidates rows).map (keyAt rows)) key
      pure ((candidates rows).drop start ++ (candidates rows).take start)

/-- `record_network_progress`: only the last serviced identity is kept. -/
def recordNetworkProgress (binding : Option String) (i : ℕ) : CursorFile :=
  .state ⟨.text schedulerVersion, .text universePolicyVersion, bindingField binding, .text (keyAt rows i)⟩

/-- A live run services the first candidates of its order, if it gets one, and records each of them; an offline one
    records nothing. -/
inductive EnrichmentRun where
  | live (count : ℕ)
  | replay
  deriving DecidableEq

def EnrichmentRun.serviced (binding : Option String) (file : CursorFile) : EnrichmentRun → List ℕ
  | .live count => ((enrichmentOrder rows binding false file).toOption.getD []).take count
  | .replay => []

def EnrichmentRun.cursor (binding : Option String) (file : CursorFile) (run : EnrichmentRun) : CursorFile :=
  (run.serviced rows binding file).foldl (fun _ i => recordNetworkProgress rows binding i) file

def services (binding : Option String) : CursorFile → List EnrichmentRun → List ℕ
  | _, [] => []
  | file, run :: later => run.serviced rows binding file ++ services binding (run.cursor rows binding file) later

end Money
