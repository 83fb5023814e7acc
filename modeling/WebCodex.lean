import WebCodex.JobLog.NoSilentLoss
import WebCodex.Patch.RoundTrip
import WebCodex.Patch.Uniqueness
import WebCodex.ProjectInventory.Publication
import WebCodex.Registry.AtMostOnce
import WebCodex.Registry.DetachedStarts
import WebCodex.TaskStore.Finality
import WebCodex.TaskStore.Guidance
import WebCodex.AgentTasks.Repetition
import WebCodex.WorkflowSession.Durability
import WebCodex.WorkflowSession.Watching
import WebCodex.RunnerWire.Reencoding
import WebCodex.Validation.Overtaken
import WebCodex.WorkflowSession.ContextRecovery
import WebCodex.ProjectMemory.Clocks
import WebCodex.Goals.CompareAndSwap
import WebCodex.PersistentShell.Attribution
import WebCodex.TaskStore.EditReplay
import WebCodex.AgentTasks.MissedSnapshots
import WebCodex.WorkflowSession.ExecutionContext
import WebCodex.Registry.FinishedUpdates
import WebCodex.WorkflowSession.ValidationJobRuns
import WebCodex.Validation.DeltaExact
import WebCodex.Validation.TestCounts
import WebCodex.TaskStore.EvidenceRuns
import WebCodex.TaskStore.Ownership
import WebCodex.ValidationBridge.Envelope
import WebCodex.AgentWake.RunConstraints
import WebCodex.JobObservation.Token
import WebCodex.ProjectListing.GlobCharacters
import WebCodex.JobLog.Numbering
import WebCodex.TextEdit.Editability
import WebCodex.FileRead.Paging
import WebCodex.CommandText.ShellQuote
import WebCodex.CommandText.Preview
import WebCodex.OutputText.Bounding
import WebCodex.PathPolicy.SensitivePaths
import WebCodex.Registry.UnregisterFence
import WebCodex.Lsp.Positions
