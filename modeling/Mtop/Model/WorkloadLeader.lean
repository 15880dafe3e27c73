import Mathlib.Data.List.MinMax
import Mtop.Model.WorkloadOrder

/-! What a workload takes from its representative, the first of its most confident members. -/
namespace Mtop
open Cxx
set_option autoImplicit false

/-! ## The representative as a first maximum -/

section Leader
variable (σ : StdSort) (snapshot : SystemSnapshot)

end Leader
end Mtop
