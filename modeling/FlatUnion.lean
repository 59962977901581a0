import FlatUnion.Catalog
import FlatUnion.Json.Source
import FlatUnion.Proofs.Acceptance
import FlatUnion.Proofs.Buffering
import FlatUnion.Proofs.Catalog
import FlatUnion.Proofs.Code.Reads
import FlatUnion.Proofs.Code.Uses
import FlatUnion.Proofs.Concatenating
import FlatUnion.Proofs.Derive.Counting
import FlatUnion.Proofs.Derive.Diagnosing
import FlatUnion.Proofs.Derive.Names
import FlatUnion.Proofs.Derive.Overriding
import FlatUnion.Proofs.Derive.Rounds
import FlatUnion.Proofs.Enums
import FlatUnion.Proofs.Exhausting
import FlatUnion.Proofs.Fieldless
import FlatUnion.Proofs.FirstFault
import FlatUnion.Proofs.Lossless
import FlatUnion.Proofs.Nesting
import FlatUnion.Proofs.Readability
import FlatUnion.Proofs.Refusing
import FlatUnion.Proofs.Reordering
import FlatUnion.Proofs.RoundTrip
import FlatUnion.Proofs.Schema.Documents
import FlatUnion.Proofs.Surviving
import FlatUnion.Proofs.WideIntegers
import FlatUnion.Read.Probe
import FlatUnion.Write.Sink
