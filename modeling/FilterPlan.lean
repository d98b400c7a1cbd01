import FilterPlan.CommandLine.Answer
import FilterPlan.Main
import FilterPlan.Proofs.Filter.Reading
import FilterPlan.Proofs.Param.Table
import FilterPlan.Proofs.Predicate.Numbering
import FilterPlan.Proofs.Plan.Clauses
import FilterPlan.Proofs.Plan.Parameters
import FilterPlan.Proofs.Predicate.Meaning
import FilterPlan.Proofs.Plan.Shape
import FilterPlan.Proofs.Text.Agreement
import FilterPlan.Proofs.Filter.Members
import FilterPlan.Proofs.Plan.Layout
import FilterPlan.Proofs.Plan.Settings
import FilterPlan.Proofs.Plan.Acceptance
import FilterPlan.Proofs.Plan.Aliases
import FilterPlan.Proofs.Plan.DirectiveOrder
import FilterPlan.Proofs.Plan.Renumbering
import FilterPlan.Proofs.Plan.FilterOrder
import FilterPlan.Proofs.Plan.Origins
import FilterPlan.Proofs.Text.Name
import FilterPlan.Proofs.Predicate.Unambiguous
import FilterPlan.Proofs.Plan.FilterText
import FilterPlan.Proofs.Plan.Rerooting
import FilterPlan.Proofs.Filter.Writing
import FilterPlan.Proofs.Filter.RoundTrip
import FilterPlan.Proofs.Filter.Scalars
import FilterPlan.Proofs.Text.Rejoining
import FilterPlan.Proofs.Filter.Positions
import FilterPlan.Proofs.Config.Layers
import FilterPlan.Proofs.Filter.Verdict
import FilterPlan.Proofs.Filter.Conservation
import FilterPlan.Proofs.Predicate.Negation
import FilterPlan.Proofs.Text.Fields
import FilterPlan.Proofs.Plan.Selection
import FilterPlan.Proofs.Plan.SelectedProperties
import FilterPlan.Proofs.Text.Words
import FilterPlan.Proofs.Plan.Literals
import FilterPlan.Proofs.Plan.Order
import FilterPlan.Proofs.Plan.Placeholders
import FilterPlan.Proofs.Plan.Pages
import FilterPlan.Proofs.Text.Closing
import FilterPlan.Proofs.Filter.Surroundings
import FilterPlan.Proofs.Request
