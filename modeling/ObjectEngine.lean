import ObjectEngine.Caller
import ObjectEngine.Config
import ObjectEngine.Double
import ObjectEngine.Double.Shortest
import ObjectEngine.Engine.Action
import ObjectEngine.Engine.Batch
import ObjectEngine.Engine.Catalog
import ObjectEngine.Engine.Includes
import ObjectEngine.Engine.Indexing
import ObjectEngine.Engine.Join
import ObjectEngine.Engine.Operations
import ObjectEngine.Engine.Program
import ObjectEngine.Error
import ObjectEngine.Event
import ObjectEngine.Filter
import ObjectEngine.Include
import ObjectEngine.Json
import ObjectEngine.Json.Reader
import ObjectEngine.Json.Record
import ObjectEngine.Members
import ObjectEngine.Members.Lemmas
import ObjectEngine.Plan.Edit
import ObjectEngine.Plan.Field
import ObjectEngine.Plan.Selection
import ObjectEngine.Proofs.Double.Integers
import ObjectEngine.Proofs.Engine.Accumulating
import ObjectEngine.Proofs.Engine.Agreeing
import ObjectEngine.Proofs.Engine.Batches
import ObjectEngine.Proofs.Engine.Calls
import ObjectEngine.Proofs.Engine.Catalog
import ObjectEngine.Proofs.Engine.Coherence
import ObjectEngine.Proofs.Engine.Confining
import ObjectEngine.Proofs.Engine.Counting
import ObjectEngine.Proofs.Engine.Deciding
import ObjectEngine.Proofs.Engine.Declaring
import ObjectEngine.Proofs.Engine.Deleted
import ObjectEngine.Proofs.Engine.Edges
import ObjectEngine.Proofs.Engine.Ensures
import ObjectEngine.Proofs.Engine.Flattening
import ObjectEngine.Proofs.Engine.Frame
import ObjectEngine.Proofs.Engine.Granting
import ObjectEngine.Proofs.Engine.Identity
import ObjectEngine.Proofs.Engine.Included
import ObjectEngine.Proofs.Engine.Issuing
import ObjectEngine.Proofs.Engine.Keeping
import ObjectEngine.Proofs.Engine.Leaving
import ObjectEngine.Proofs.Engine.Lockstep
import ObjectEngine.Proofs.Engine.Membership
import ObjectEngine.Proofs.Engine.Owners
import ObjectEngine.Proofs.Engine.Permission
import ObjectEngine.Proofs.Engine.Positions
import ObjectEngine.Proofs.Engine.Preparing
import ObjectEngine.Proofs.Engine.Proceeding
import ObjectEngine.Proofs.Engine.Projecting
import ObjectEngine.Proofs.Engine.Protection
import ObjectEngine.Proofs.Engine.Protocol
import ObjectEngine.Proofs.Engine.Readable
import ObjectEngine.Proofs.Engine.Reading
import ObjectEngine.Proofs.Engine.Reads
import ObjectEngine.Proofs.Engine.Recording
import ObjectEngine.Proofs.Engine.Refusing
import ObjectEngine.Proofs.Engine.Relating
import ObjectEngine.Proofs.Engine.Relations
import ObjectEngine.Proofs.Engine.Rereading
import ObjectEngine.Proofs.Engine.Sequence
import ObjectEngine.Proofs.Engine.Serving
import ObjectEngine.Proofs.Engine.Soundness
import ObjectEngine.Proofs.Engine.Suiting
import ObjectEngine.Proofs.Engine.Tallying
import ObjectEngine.Proofs.Engine.Tending
import ObjectEngine.Proofs.Engine.Together
import ObjectEngine.Proofs.Engine.Undoing
import ObjectEngine.Proofs.Engine.Unrecorded
import ObjectEngine.Proofs.Engine.Updates
import ObjectEngine.Proofs.Engine.Upserting
import ObjectEngine.Proofs.Engine.Visibility
import ObjectEngine.Proofs.Engine.Writes
import ObjectEngine.Proofs.Engine.Writing
import ObjectEngine.Proofs.Event.Projection
import ObjectEngine.Proofs.Event.Unfolding
import ObjectEngine.Proofs.Include.Answers
import ObjectEngine.Proofs.Include.Batches
import ObjectEngine.Proofs.Include.Fetches
import ObjectEngine.Proofs.Include.Levels
import ObjectEngine.Proofs.Include.Paths
import ObjectEngine.Proofs.Include.Prefixes
import ObjectEngine.Proofs.Include.Resolve
import ObjectEngine.Proofs.Include.Splicing
import ObjectEngine.Proofs.Outcome
import ObjectEngine.Proofs.Rest.Acceptance
import ObjectEngine.Proofs.Rest.Bodies
import ObjectEngine.Proofs.Rest.Portable
import ObjectEngine.Proofs.Rest.RoundTrip
import ObjectEngine.Proofs.Schema.Cache
import ObjectEngine.Proofs.Schema.Coalescing
import ObjectEngine.Proofs.Schema.Notices
import ObjectEngine.Proofs.Schema.Patches
import ObjectEngine.Proofs.Schema.Records
import ObjectEngine.Proofs.Schema.Refinement
import ObjectEngine.Proofs.Schema.Traffic
import ObjectEngine.Proofs.Store.Advancing
import ObjectEngine.Proofs.Store.Applying
import ObjectEngine.Proofs.Store.Changes
import ObjectEngine.Proofs.Store.Edits
import ObjectEngine.Proofs.Store.Effect
import ObjectEngine.Proofs.Store.Failing
import ObjectEngine.Proofs.Store.History
import ObjectEngine.Proofs.Store.Identity
import ObjectEngine.Proofs.Store.Limits
import ObjectEngine.Proofs.Store.Lockstep
import ObjectEngine.Proofs.Store.Nesting
import ObjectEngine.Proofs.Store.Operators
import ObjectEngine.Proofs.Store.Ordering
import ObjectEngine.Proofs.Store.Outside
import ObjectEngine.Proofs.Store.Query
import ObjectEngine.Proofs.Store.Quiet
import ObjectEngine.Proofs.Store.Revising
import ObjectEngine.Proofs.Store.Rollback
import ObjectEngine.Proofs.Store.Scripts
import ObjectEngine.Proofs.Store.Seeding
import ObjectEngine.Proofs.Store.Separate
import ObjectEngine.Proofs.Store.Single
import ObjectEngine.Proofs.Store.Uniqueness
import ObjectEngine.Proofs.Store.Watching
import ObjectEngine.Proofs.Store.WellFormed
import ObjectEngine.Proofs.Store.Work
import ObjectEngine.Proofs.Stored.Access
import ObjectEngine.Proofs.Stored.Documents
import ObjectEngine.Proofs.Stored.Layout
import ObjectEngine.Proofs.Stored.Projecting
import ObjectEngine.Proofs.Stored.Reading
import ObjectEngine.Proofs.Stored.Selfsame
import ObjectEngine.Proofs.Stored.Typing
import ObjectEngine.Proofs.Stored.Unfamiliar
import ObjectEngine.Proofs.Stored.Values
import ObjectEngine.Proofs.Text.Credentials
import ObjectEngine.Proofs.Text.Reading
import ObjectEngine.Proofs.Time.Timestamps
import ObjectEngine.Regex
import ObjectEngine.Regex.CharSet
import ObjectEngine.Regex.Flags
import ObjectEngine.Regex.Form
import ObjectEngine.Regex.Form.Room
import ObjectEngine.Regex.Node
import ObjectEngine.Regex.Pattern
import ObjectEngine.Regex.Piece
import ObjectEngine.Regex.Room
import ObjectEngine.Schema
import ObjectEngine.Schema.Cache
import ObjectEngine.Schema.Interchange
import ObjectEngine.Schema.Sharing
import ObjectEngine.Schema.TypeText
import ObjectEngine.Sorting
import ObjectEngine.Store.Call
import ObjectEngine.Store.Datum
import ObjectEngine.Store.Editing
import ObjectEngine.Store.Matching
import ObjectEngine.Store.Order
import ObjectEngine.Store.Predicate
import ObjectEngine.Store.Script
import ObjectEngine.Store.State
import ObjectEngine.Stored.Document
import ObjectEngine.Stored.Value
import ObjectEngine.Text.Age
import ObjectEngine.Text.Blank
import ObjectEngine.Text.Bytes
import ObjectEngine.Text.CaseFolding
import ObjectEngine.Text.Category
import ObjectEngine.Text.Letter
import ObjectEngine.Text.Lowercase
import ObjectEngine.Text.Numeral
import ObjectEngine.Text.Property
import ObjectEngine.Text.Property.Derived
import ObjectEngine.Text.Property.Listed
import ObjectEngine.Text.Ranges
import ObjectEngine.Text.Script
import ObjectEngine.Text.Segmentation
import ObjectEngine.Text.Split
import ObjectEngine.Text.Utf8
import ObjectEngine.Time.Instant
import ObjectEngine.Time.Iso
import ObjectEngine.Update
import ObjectEngine.Uri
import ObjectEngine.Value
import ObjectEngine.Value.Rest
import ObjectEngine.Wire
import ObjectEngine.Wire.Datum
import ObjectEngine.Wire.Event
import ObjectEngine.Wire.Filter
import ObjectEngine.Wire.Predicate
import ObjectEngine.Wire.Schema
import ObjectEngine.Wire.Value
import ObjectEngine.Wire.Write
import ObjectEngine.Words
