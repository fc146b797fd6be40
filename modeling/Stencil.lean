import Stencil.Store.Library
import Stencil.Proofs.Markup.ConditionSpelling
import Stencil.Proofs.Markup.Enclosed
import Stencil.Proofs.Markup.Escaping
import Stencil.Proofs.Markup.Pairing
import Stencil.Proofs.Render.Accounts
import Stencil.Proofs.Render.Counters
import Stencil.Proofs.Render.Descent
import Stencil.Proofs.Render.Edited
import Stencil.Proofs.Render.ForestWalk
import Stencil.Proofs.Render.Interference
import Stencil.Proofs.Render.LoopExpansion
import Stencil.Proofs.Render.Placeholders
import Stencil.Proofs.Render.Shadowing
import Stencil.Proofs.Render.Spent
import Stencil.Proofs.Render.TagSource
import Stencil.Proofs.Render.Untouched
import Stencil.Proofs.Render.SameCourse
import Stencil.Proofs.Store.FileTree
import Stencil.Proofs.Store.Lookup
import Stencil.Proofs.Scope.Paths
import Stencil.Proofs.Template.OnePass
import Stencil.Proofs.Filter.Registration
import Stencil.Proofs.Filter.Marks
import Stencil.Proofs.Markup.QuotedArgument
import Stencil.Proofs.Render.QuotedDefault
import Stencil.Proofs.Filter.ArgumentList
import Stencil.Proofs.Store.Existence
import Stencil.Proofs.Scope.LoopVariable
import Stencil.Proofs.Value.Leaves
import Stencil.Proofs.Markup.TagScan
import Stencil.Proofs.Markup.Cuts
import Stencil.Proofs.Filter.BlankArgument
