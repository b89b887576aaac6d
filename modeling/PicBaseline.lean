import PicBaseline.Main
import PicBaseline.Proofs.Field.Lens
import PicBaseline.Proofs.Pattern.Compile
import PicBaseline.Proofs.Pattern.Matching
import PicBaseline.Proofs.Status.SetText
import PicBaseline.Proofs.Opcode.Order
import PicBaseline.Proofs.Assembly.Acceptance
import PicBaseline.Proofs.Assembly.FirstFault
import PicBaseline.Proofs.Assembly.Fidelity
import PicBaseline.Proofs.Assembly.Boundaries
import PicBaseline.Proofs.Assembly.TwoDecoders
import PicBaseline.Proofs.Assembly.UpperNibble
import PicBaseline.Proofs.Assembly.LegalCode
import PicBaseline.Proofs.Assembly.Counter
import PicBaseline.Proofs.IntelHex.Rendering
import PicBaseline.Proofs.IntelHex.Corruption
import PicBaseline.Proofs.IntelHex.Concatenation
import PicBaseline.Proofs.IntelHex.Presentation
import PicBaseline.Proofs.Json.Forms
import PicBaseline.Proofs.Program.Renderings
import PicBaseline.Proofs.CommandLine.AllOrNothing
