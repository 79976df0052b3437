import BillOfMaterials.Config.Load
import BillOfMaterials.Json.Schema
import BillOfMaterials.Log.Subscriber
import BillOfMaterials.Package.Render
import BillOfMaterials.Package.Store
import BillOfMaterials.Proofs.Config.Loading
import BillOfMaterials.Proofs.Config.Validity
import BillOfMaterials.Proofs.Digest.Form
import BillOfMaterials.Proofs.Digest.Streaming
import BillOfMaterials.Proofs.Document.Fields
import BillOfMaterials.Proofs.Document.Forgery
import BillOfMaterials.Proofs.Document.Form
import BillOfMaterials.Proofs.Document.Legible
import BillOfMaterials.Proofs.Document.Lines
import BillOfMaterials.Proofs.Document.Outline
import BillOfMaterials.Proofs.Document.Places
import BillOfMaterials.Proofs.Document.Reading
import BillOfMaterials.Proofs.Document.Transcript
import BillOfMaterials.Proofs.Document.Unambiguous
import BillOfMaterials.Proofs.Document.WellFormed
import BillOfMaterials.Proofs.Error.Wrapping
import BillOfMaterials.Proofs.Identifier.FileKeys
import BillOfMaterials.Proofs.Identifier.Synthesis
import BillOfMaterials.Proofs.Json.Grammar
import BillOfMaterials.Proofs.Json.Objects
import BillOfMaterials.Proofs.Json.ReadBack
import BillOfMaterials.Proofs.Json.Records
import BillOfMaterials.Proofs.Json.Skipping
import BillOfMaterials.Proofs.Json.Strings
import BillOfMaterials.Proofs.Outcome
import BillOfMaterials.Proofs.Path.Climbing
import BillOfMaterials.Proofs.Path.Relative
import BillOfMaterials.Proofs.Path.Segments
import BillOfMaterials.Proofs.Path.Stripping
import BillOfMaterials.Proofs.Rendering.Current
import BillOfMaterials.Proofs.Rendering.FirstDefect
import BillOfMaterials.Proofs.Rendering.Log
import BillOfMaterials.Proofs.Rendering.Refresh
import BillOfMaterials.Proofs.Rendering.Result
import BillOfMaterials.Proofs.Rendering.Session
import BillOfMaterials.Proofs.Rendering.Splice
import BillOfMaterials.Proofs.Source.Checksums
import BillOfMaterials.Proofs.Source.Ingestion
import BillOfMaterials.Proofs.Source.Reaching
import BillOfMaterials.Proofs.Store.AnyOrder
import BillOfMaterials.Proofs.Store.Attachment
import BillOfMaterials.Proofs.Store.Filed
import BillOfMaterials.Proofs.Store.Identifiers
import BillOfMaterials.Proofs.Store.Keys
import BillOfMaterials.Proofs.Store.Ledger
import BillOfMaterials.Proofs.Store.Lookup
import BillOfMaterials.Proofs.Store.Refusal
import BillOfMaterials.Proofs.Text.Utf8
import BillOfMaterials.Proofs.Tree.Built
import BillOfMaterials.Proofs.Tree.Edges
import BillOfMaterials.Proofs.Tree.InStep
import BillOfMaterials.Proofs.Tree.Own
import BillOfMaterials.Proofs.Tree.Sites
import BillOfMaterials.Proofs.Tree.Walk
import BillOfMaterials.Proofs.Verification.AnyOrder
import BillOfMaterials.Proofs.Verification.Backing
import BillOfMaterials.Proofs.Verification.Gap
import BillOfMaterials.Proofs.Verification.Licenses
import BillOfMaterials.Proofs.Verification.Recomputed
import BillOfMaterials.Proofs.Verification.Separation
import BillOfMaterials.Source
