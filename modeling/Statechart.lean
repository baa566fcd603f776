import Statechart.History
import Statechart.Machine.Builder
import Statechart.Node.Builder
import Statechart.Proofs.Action.Binding
import Statechart.Proofs.Definition
import Statechart.Proofs.Machine.Address
import Statechart.Proofs.Machine.Atomic
import Statechart.Proofs.Machine.Blocks
import Statechart.Proofs.Machine.Builder
import Statechart.Proofs.Machine.Discipline
import Statechart.Proofs.Machine.Fold
import Statechart.Proofs.Machine.Foresight
import Statechart.Proofs.Machine.History
import Statechart.Proofs.Machine.Listeners
import Statechart.Proofs.Machine.Nameless
import Statechart.Proofs.Machine.Refusal
import Statechart.Proofs.Machine.Restart
import Statechart.Proofs.Machine.Subscribers
import Statechart.Proofs.Node.Account
import Statechart.Proofs.Path.Grammar
import Statechart.Proofs.Path.Nested
import Statechart.Proofs.Path.Semilattice
import Statechart.Proofs.Store
import Statechart.Proofs.Target
import Statechart.Proofs.Tree.Domain
import Statechart.Proofs.Tree.Leaf
import Statechart.Proofs.Tree.Nameless
import Statechart.Proofs.Tree.SelfTransition
import Statechart.Proofs.Tree.Start
