import WebCodex.Foundation.Fallible
import WebCodex.Foundation.Keyed
import WebCodex.TaskStore.Rows

/-!
An edit of a task is made under an operation id. The store keeps a row for every id that was
begun, with the hash of the request and whether the operation is pending, completed or failed. The
retry of a failed operation is a statement of its own behind the transaction that has read the
row; the runs also have it by itself (`EditCall.retry`).
-/

namespace WebCodex.TaskStore

open Foundation

inductive ConnectorEditOperationState
  | pending | completed | failed
  deriving DecidableEq

/-- `wc_edit_operations`. -/
structure EditOperationRow where
  (operationId requestSha256 : String)
  state : ConnectorEditOperationState := .pending
  resultJson : Option String := none
  (createdAt updatedAt : ℤ)

/-- The writer and the reader of JSON values. The reader reads back what was written. -/
structure JsonText (Value : Type) where
  toString : Value → String
  fromStr : String → Option Value
  fromStr_toString : ∀ value, fromStr (toString value) = some value

inductive ConnectorEditOperationGate (Value : Type)
  | started
  | replay (result : Value)
  | pending
  | conflict

structure EditTask where
  rows : TaskRows
  edits : List EditOperationRow := []

/-- The row of an operation, when it has the request and the state. -/
def EditOperationRow.isIn (operationId requestSha256 : String) (state : ConnectorEditOperationState)
    (row : EditOperationRow) : Bool :=
  row.operationId == operationId && row.requestSha256 == requestSha256 && row.state == state

namespace EditTask

def edit? (operationId : String) (task : EditTask) : Option EditOperationRow :=
  task.edits.find? fun row ↦ row.operationId == operationId

/-- `load_task` and `require_running`. -/
def requireRunning (projectId subjectId : String) (task : EditTask) : Fallible Unit := do
  ensure (task.rows.projectId == projectId && task.rows.ownerSubjectId == subjectId) .notFound
  task.rows.requireRunning

/-- `UPDATE ... WHERE operation_id, request_sha256, state`, when it updates a row. -/
def updateEdit (operationId requestSha256 : String) (state : ConnectorEditOperationState)
    (f : EditOperationRow → EditOperationRow) (task : EditTask) : Option EditTask :=
  if task.edits.any (EditOperationRow.isIn operationId requestSha256 state) then
    some
      { task with
        edits := task.edits.map fun row ↦
          if row.isIn operationId requestSha256 state then f row else row }
  else none

end EditTask

section Operations

variable {Value : Type} (json : JsonText Value)

/-- The retry of an operation that was read as failed. -/
def retryConnectorEditOperation (operationId requestSha256 : String) (now : ℤ) (task : EditTask) :
    EditTask × ConnectorEditOperationGate Value :=
  match task.updateEdit operationId requestSha256 .failed fun row ↦
      { row with state := .pending, updatedAt := now } with
  | some after => (after, .started)
  | none => (task, .pending)

def beginConnectorEditOperation (projectId subjectId operationId requestSha256 : String) (now : ℤ)
    (task : EditTask) : Fallible (EditTask × ConnectorEditOperationGate Value) := do
  task.requireRunning projectId subjectId
  match task.edit? operationId with
  | some row =>
    if row.requestSha256 ≠ requestSha256 then .ok (task, .conflict)
    else
      match row.state, row.resultJson with
      | .pending, none => .ok (task, .pending)
      | .completed, some resultJson =>
        match json.fromStr resultJson with
        | some result => .ok (task, .replay result)
        | none => .error (.storage "wc_edit_operations.result_json")
      | .failed, none => .ok (retryConnectorEditOperation operationId requestSha256 now task)
      | _, _ => .error (.invalidState "edit operation state is inconsistent")
  | none =>
    let row : EditOperationRow :=
      { operationId := operationId, requestSha256 := requestSha256, createdAt := now,
        updatedAt := now }
    .ok ({ task with edits := task.edits ++ [row] }, .started)

def completeConnectorEditOperation (projectId subjectId operationId requestSha256 : String)
    (result : Value) (now : ℤ) (task : EditTask) : Fallible EditTask := do
  task.requireRunning projectId subjectId
  required (task.updateEdit operationId requestSha256 .pending fun row ↦
      { row with state := .completed, resultJson := some (json.toString result), updatedAt := now })
    (.invalidState "edit operation could not be completed")

def failConnectorEditOperation (operationId requestSha256 : String) (now : ℤ) (task : EditTask) :
    Fallible EditTask :=
  required (task.updateEdit operationId requestSha256 .pending fun row ↦
      { row with state := .failed, updatedAt := now })
    (.invalidState "edit operation could not be marked failed")

/-- A call, or a change of the other rows of the task. -/
inductive EditCall (Value : Type)
  | begin (projectId subjectId operationId requestSha256 : String) (now : ℤ)
  | retry (operationId requestSha256 : String) (now : ℤ)
  | complete (projectId subjectId operationId requestSha256 : String) (result : Value) (now : ℤ)
  | fail (operationId requestSha256 : String) (now : ℤ)
  | other (rows : TaskRows)

inductive EditAnswer (Value : Type)
  | gate (gate : ConnectorEditOperationGate Value)
  | recorded
  | changed

def EditCall.perform (call : EditCall Value) (task : EditTask) :
    Fallible (EditTask × EditAnswer Value) :=
  match call with
  | begin projectId subjectId operationId requestSha256 now =>
    (fun result ↦ (result.1, .gate result.2)) <$>
      beginConnectorEditOperation json projectId subjectId operationId requestSha256 now task
  | retry operationId requestSha256 now =>
    let result := retryConnectorEditOperation operationId requestSha256 now task
    .ok (result.1, .gate result.2)
  | complete projectId subjectId operationId requestSha256 result now =>
    (·, .recorded) <$>
      completeConnectorEditOperation json projectId subjectId operationId requestSha256 result
        now task
  | fail operationId requestSha256 now =>
    (·, .recorded) <$> failConnectorEditOperation operationId requestSha256 now task
  | other rows => .ok ({ task with rows := rows }, .changed)

/-- The task after a call. A call that fails changes nothing. -/
def EditCall.next (call : EditCall Value) (task : EditTask) : EditTask :=
  match call.perform json task with
  | .ok result => result.1
  | .error _ => task

def EditCall.answer (call : EditCall Value) (task : EditTask) : Fallible (EditAnswer Value) :=
  Prod.snd <$> call.perform json task

def runEdits (rows : TaskRows) (calls : List (EditCall Value)) : EditTask :=
  calls.foldl (fun task call ↦ call.next json task) { rows := rows }

end Operations

end WebCodex.TaskStore
