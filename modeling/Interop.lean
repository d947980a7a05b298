import Interop.Binary64
import Interop.Decimal.Shortest
import Interop.Decimal.Layout
import Interop.Text.Encoding
import Interop.Text.Ranges
import Interop.Text.Unprintable
import Interop.Text.Extending
import Interop.Text.Ignorable
import Interop.Text.Capital
import Interop.Text.Blank
import Interop.Text.Unsigned
import Interop.Text.Quoted
import Interop.Host.Kind
import Interop.Host.Type
import Interop.Host.Value
import Interop.Error
import Interop.Heap
import Interop.Host.Conformance
import Interop.Host.State
import Interop.NameMap
import Interop.Place
import Interop.Value
import Interop.Options
import Interop.Event
import Interop.Action
import Interop.Render
import Interop.Convert.Export
import Interop.Convert.Import
import Interop.Registry
import Interop.Member
import Interop.Call
import Interop.Package
import Interop.Json.Document
import Interop.Json.OfValue
import Interop.Json.Bytes
import Interop.Json.Quotation
import Interop.Json.Number
import Interop.Json.Scan
import Interop.Json.Skip
import Interop.Json.KindName
import Interop.Options.Reading
import Interop.Options.Environment
import Interop.Inspect
import Interop.Proofs.Action
import Interop.Proofs.Convert.Export
import Interop.Proofs.Heap
import Interop.Proofs.Place
import Interop.Proofs.Aliasing
import Interop.Proofs.Convert.Import
import Interop.Proofs.Convert.Acceptance
import Interop.Proofs.RoundTrip
import Interop.Proofs.Projection
import Interop.Proofs.Typing.Conformance
import Interop.Proofs.Typing.Places
import Interop.Proofs.Typing.State
import Interop.Proofs.Typing.Keeps
import Interop.Proofs.Typing.Conversion
import Interop.Proofs.Typing.Operations
import Interop.Proofs.Typing.Calls
import Interop.Proofs.Typing.Run
import Interop.Proofs.Agreement
import Interop.Proofs.Conflict
import Interop.Proofs.Marshalling
import Interop.Proofs.Receiver
import Interop.Proofs.Independence
import Interop.Proofs.Reexport
import Interop.Proofs.Settling
import Interop.Proofs.Loans
import Interop.Proofs.Convert.Unsupported
import Interop.Proofs.Typing.Soundness
import Interop.Proofs.Typing.Exports
import Interop.Proofs.Typing.Writing
import Interop.Proofs.References
import Interop.Proofs.Display
import Interop.Proofs.Typing.SoundActions
import Interop.Proofs.Typing.SoundCalls
import Interop.Proofs.Acyclicity
import Interop.Proofs.Convert.Failures
import Interop.Proofs.Convert.HostForms
import Interop.Proofs.Member
import Interop.Proofs.Construction
import Interop.Proofs.Untouched
import Interop.Proofs.Lens
import Interop.Proofs.Naming
import Interop.Proofs.Elision
import Interop.Proofs.Documents
import Interop.Proofs.Registration
import Interop.Proofs.Environment
import Interop.Proofs.CallLog
import Interop.Proofs.Filled.Actions
import Interop.Proofs.Filled.Ranges
