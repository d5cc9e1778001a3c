import RackMcp.Lib.Trace
import RackMcp.Rackside.Transaction

/-!
# The undo history

Rack's history as `rackside/Transaction.cpp` shares it with the user: commits and manual actions push an entry and
drop what could be redone, an undo takes the newest entry back, a redo does it again. `time`, the marks of the entries
and `moved` are not part of Rack: they record at which event each entry was pushed, and whether the history was touched
since a commit of the last recorded transaction pushed its entry.
-/

namespace RackMcp

inductive HistoryEvent where
  | commit (request : Json) (durationMs : Double)
  /-- The user does something that Rack can undo; `patch` is the patch after it. -/
  | manual (name : List UInt8) (actions : List Action) (patch : Patch)
  | undo
  | redo (patch : Patch)
  /-- The patch changes and nothing is pushed. -/
  | drift (patch : Patch)
  | undoLast (request : Json)

/-- What an event does to the history. -/
inductive HistoryMove where
  | pushed
  | undone
  | redone
deriving DecidableEq

/-- The Rack with its history. An entry that can be redone stands with its mark, the next one first. -/
structure HistoryWorld where
  rs : RackState
  redoable : List (HistoryEntry × ℕ) := []
  time : ℕ := 0
  /-- The event that pushed each entry of the history. -/
  pushedAt : List ℕ := []
  moved : Bool := false

namespace HistoryWorld

/-- A Rack with a patch, an empty history and no transaction recorded. -/
def start (p : Patch) : HistoryWorld := { rs := { patch := p } }

/-- The entries stay as they are. -/
def staying (w : HistoryWorld) (rs : RackState) : HistoryWorld := { w with rs, time := w.time + 1 }

/-- `History::push`, with `rs` as it leaves the Rack. -/
def pushing (w : HistoryWorld) (rs : RackState) (moved : Bool) : HistoryWorld :=
  { rs, redoable := [], time := w.time + 1, pushedAt := w.pushedAt ++ [w.time], moved }

/-- `History::undo`, with `rs` as it leaves the Rack. -/
def popping (w : HistoryWorld) (rs : RackState) : HistoryWorld where
  rs := rs
  redoable := (w.rs.history.zip w.pushedAt).getLast?.toList ++ w.redoable
  time := w.time + 1
  pushedAt := w.pushedAt.dropLast
  moved := true

/-- What `History::undo` leaves, whether or not an action throws. -/
def undoState (rack : Rack) (rs : RackState) : RackState :=
  match undoHistory rack rs with
  | .done rs | .thrown _ rs => rs

/-- The Rack after an event, and what the event does to the history. -/
def step (rack : Rack) (w : HistoryWorld) : HistoryEvent → HistoryWorld × List HistoryMove
  | .commit request durationMs =>
    let rs := (txnCommit rack request durationMs w.rs).2
    if rs.history.length > w.rs.history.length then
      (w.pushing rs (rs.lastMcpTransaction.map Prod.fst ≠ some (jstr request "operationId")), [.pushed])
    else (w.staying rs, [])
  | .manual name actions patch =>
    (w.pushing { w.rs with patch, history := w.rs.history ++ [(name, actions)] } true, [.pushed])
  | .undo =>
    if w.rs.history = [] then (w.staying w.rs, []) else (w.popping (undoState rack w.rs), [.undone])
  | .redo patch =>
    match w.redoable with
    | [] => (w.staying w.rs, [])
    | (entry, mark) :: rest =>
      ({ rs := { w.rs with patch, history := w.rs.history ++ [entry] }, redoable := rest, time := w.time + 1,
         pushedAt := w.pushedAt ++ [mark], moved := true }, [.redone])
  | .drift patch => (w.staying { w.rs with patch }, [])
  | .undoLast request =>
    let rs := (txnUndoLast rack request w.rs).2
    if rs.history.length < w.rs.history.length then (w.popping rs, [.undone]) else (w.staying rs, [])

/-- The Rack before the event at index `k`. -/
def worldAt (rack : Rack) (p : Patch) (es : List HistoryEvent) (k : ℕ) : HistoryWorld :=
  Trace.stateAt (step rack) (start p) es k

/-- The event at index `k` does `move` to the history. -/
def Moves (rack : Rack) (p : Patch) (es : List HistoryEvent) (k : ℕ) (move : HistoryMove) : Prop :=
  Trace.Emits (step rack) (start p) es k move

end HistoryWorld

end RackMcp
