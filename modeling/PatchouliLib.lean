import PatchouliLib.Foundation.Base64
import PatchouliLib.Foundation.Buffering
import PatchouliLib.Foundation.Bytes
import PatchouliLib.Foundation.Calendar
import PatchouliLib.Foundation.Dictionary
import PatchouliLib.Foundation.EventLog
import PatchouliLib.Foundation.Framing
import PatchouliLib.Foundation.Grams
import PatchouliLib.Foundation.Json
import PatchouliLib.Foundation.JsonReading
import PatchouliLib.Foundation.Keyset
import PatchouliLib.Foundation.Run
import PatchouliLib.Foundation.Sha256
import PatchouliLib.Foundation.SqlValue
import PatchouliLib.Foundation.Table
import PatchouliLib.Foundation.Trace
import PatchouliLib.Foundation.Transaction
import PatchouliLib.Foundation.Unordered
import PatchouliLib.Foundation.Versions
import PatchouliLib.Platform
import PatchouliLib.Identifiers.PageIds
import PatchouliLib.Identifiers.RevisionIds
import PatchouliLib.Identifiers.CollisionOrdinals
import PatchouliLib.Identifiers.OccurrenceTimes
import PatchouliLib.Identifiers.PageIdSyntax
import PatchouliLib.Identifiers.Slugs
import PatchouliLib.Content.FileManifest
import PatchouliLib.Content.Manifests
import PatchouliLib.Content.Schemas
import PatchouliLib.Storage.Schema
import PatchouliLib.Storage.Statements
import PatchouliLib.Storage.AuthStatements
import PatchouliLib.Storage.Frames
import PatchouliLib.Storage.RevisionLaw
import PatchouliLib.Tags.Repository
import PatchouliLib.Content.Repository
import PatchouliLib.Content.PageMembershipHistory
import PatchouliLib.Content.StateTimelines
import PatchouliLib.Auth.Service
import PatchouliLib.Auth.Repository
import PatchouliLib.Storage.AuthFrames
import PatchouliLib.Idempotency.Service
import PatchouliLib.Content.Service
import PatchouliLib.Content.FileSetService
import PatchouliLib.Content.Fingerprints
import PatchouliLib.Content.PageMove
import PatchouliLib.Content.PageLifecycle
import PatchouliLib.Retrieval.FileSetRead
import PatchouliLib.Retrieval.RevisionHistory
import PatchouliLib.Admin.Service
import PatchouliLib.Admin.Agents
import PatchouliLib.Admin.Issuance
import PatchouliLib.Admin.MasterToken
import PatchouliLib.Auth.Onboarding
import PatchouliLib.Admin.FileSetService
import PatchouliLib.LibrarySkills.Service
import PatchouliLib.Admin.Workspace
import PatchouliLib.Admin.FileMerge
import PatchouliLib.Client.Models
import PatchouliLib.Client.Agreement
import PatchouliLib.Client.Uploads
import PatchouliLib.Search.Literal
import PatchouliLib.Search.Grams
import PatchouliLib.Search.Ngram
import PatchouliLib.Search.Projection
import PatchouliLib.Search.TextClassification
import PatchouliLib.Search.Index
import PatchouliLib.Search.Scope
import PatchouliLib.Database
import PatchouliLib.Search.Flush
import PatchouliLib.Content.PageChange
import PatchouliLib.Content.RepositoryChanges
import PatchouliLib.Content.PageIdAllocation
import PatchouliLib.System.OperationFrames
import PatchouliLib.System.Advances
import PatchouliLib.System.Chronicle
import PatchouliLib.System.Operations
import PatchouliLib.System.Timeline
import PatchouliLib.System.AccessFrames
import PatchouliLib.System.Access
import PatchouliLib.System.Revocation
import PatchouliLib.System.Tickets
import PatchouliLib.Admin.Editors
import PatchouliLib.System.PolicyChanges
import PatchouliLib.System.PolicyForms
import PatchouliLib.System.Rotation
import PatchouliLib.System.PageIdentifiers
import PatchouliLib.System.Exhaustion
import PatchouliLib.Content.Snapshots
import PatchouliLib.System.Snapshots
import PatchouliLib.System.Restores
import PatchouliLib.System.Conditions
import PatchouliLib.System.ConditionalWrites
import PatchouliLib.System.Appends
import PatchouliLib.System.Titles
import PatchouliLib.Admin.MergeOrder
import PatchouliLib.System.Saves
import PatchouliLib.Content.StoredFiles
import PatchouliLib.Retrieval.StoredSnapshots
import PatchouliLib.Backup.Validation
import PatchouliLib.Content.StoredRows
import PatchouliLib.Retrieval.Listings
import PatchouliLib.Retrieval.Cursor
import PatchouliLib.Auth.Tokens
import PatchouliLib.Admin.Session
import PatchouliLib.Admin.TagManagement
import PatchouliLib.Api.MimeParameters
import PatchouliLib.Api.FileSetMultipart
import PatchouliLib.LibrarySkills.Snapshots
import PatchouliLib.Library.Edits
import PatchouliLib.LibrarySkills.InstallRuns
