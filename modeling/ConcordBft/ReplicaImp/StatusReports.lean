import ConcordBft.ReplicaImp.Runs

set_option autoImplicit false

/-! # Status reports

Which status reports stop a replica. -/

namespace ConcordBft.ReplicaImp

variable {App : Type} {cfg : ReplicaConfig} {handler : RequestsHandler App} {r : ReplicaImp App}
  {msg : ReplicaStatusMsg}

open Checked

end ConcordBft.ReplicaImp
