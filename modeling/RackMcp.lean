import RackMcp.Proof.Disclosure
import RackMcp.Proof.Applicable
import RackMcp.Proof.ConnectRefusal
import RackMcp.Proof.LastBridge
import RackMcp.Proof.Rollback
import RackMcp.Proof.CommitGate
import RackMcp.Proof.LeaseSafety
import RackMcp.Proof.AuthSafety
import RackMcp.Proof.Idempotency
import RackMcp.Proof.Remembered
import RackMcp.Proof.SaveTarget
import RackMcp.Proof.Affinity
import RackMcp.Proof.RecoveryHolds
import RackMcp.Proof.Framing
import RackMcp.Proof.Admission
import RackMcp.Proof.UserNotes
import RackMcp.Proof.Orphans
import RackMcp.Proof.UndoLast
import RackMcp.Proof.PatchReplacement
import RackMcp.Proof.Checkpoints
import RackMcp.Proof.Confinement
import RackMcp.Proof.ParamRate
import RackMcp.Proof.BridgeRequests
import RackMcp.Proof.Pairing
import RackMcp.Proof.AudioPath
import RackMcp.Proof.CollisionRefusal
import RackMcp.Proof.DescriptionBounds
import RackMcp.Proof.AnsweredOnce
import RackMcp.Proof.HonestErrors
import RackMcp.Proof.Sha256
import RackMcp.Proof.JsonLimits
import RackMcp.Proof.DecimalIds
import RackMcp.Proof.Truncation
import RackMcp.Proof.SecretFile
import RackMcp.Proof.ChatNotes
import RackMcp.Proof.Catalog
import RackMcp.Proof.AuditTail
import RackMcp.Proof.ProbeWindows
import RackMcp.Proof.AdmittedOperations
import RackMcp.Proof.PreviewedPlan
import RackMcp.Proof.SnapshotReads
import RackMcp.Proof.RecipeBuilds
import RackMcp.Proof.ValidationExact
import RackMcp.Proof.SnapshotValidation
import RackMcp.Proof.ProbeAttachment
import RackMcp.Proof.ProbeDetachment
