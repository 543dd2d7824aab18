import Interop.Text.Hex
import Interop.Text.Blank
import Interop.Digest.Xxh64
import Interop.Crossing
import Interop.CType.Basic
import Interop.CType.Declaration
import Interop.CType.Fingerprint
import Interop.CType.Standard
import Interop.CType.Table
import Interop.Qualifier.Kind
import Interop.Qualifier.Scale
import Interop.Qualifier.Basic
import Interop.Qualifier.Set
import Interop.Doc
import Interop.Value
import Interop.Result
import Interop.Parameter
import Interop.Signature.Scope
import Interop.Signature.Basic
import Interop.Signature.Prototype
import Interop.Overload
import Interop.Generation
import Interop.Proofs.Qualifier.History
import Interop.Proofs.Generation.Lookup
import Interop.Proofs.Signature.Faults
import Interop.Proofs.Overload.Edits
import Interop.Proofs.Overload.References
import Interop.Proofs.CType.Derivation
import Interop.Proofs.Overload.Prototypes
import Interop.Proofs.Overload.Types
import Interop.Proofs.Generation.Variants
import Interop.Proofs.Overload.Forms
import Interop.Proofs.Generation.Concrete
import Interop.Proofs.CType.Table
import Interop.Proofs.CType.Identity
import Interop.Proofs.CType.Registration
import Interop.Proofs.Generation.Outcome
import Interop.Proofs.Generation.Settings
import Interop.Proofs.Signature.Bindings
import Interop.Proofs.Value.Rendering
import Interop.Proofs.Signature.Headers
import Interop.Proofs.Signature.Arrays
import Interop.Proofs.Overload.Changes
import Interop.Proofs.Overload.Values
import Interop.Proofs.Parameter.Confinement
import Interop.Proofs.Overload.Order
import Interop.Proofs.Doc.Links
import Interop.Proofs.Overload.Arrays
import Interop.Proofs.Parameter.BufferKinds
import Interop.Proofs.Parameter.Environment
import Interop.Proofs.CType.Depth
import Interop.Proofs.CType.FixedPoints
import Interop.Proofs.Expression.Reading
import Interop.Proofs.Qualifier.Mask
import Interop.Proofs.Expression.Scaling
import Interop.Proofs.Overload.Texts
