import Playscript.Library
import Playscript.Proofs.Coercion.Rendered
import Playscript.Proofs.Compiler.Denoted
import Playscript.Proofs.Compiler.Preamble
import Playscript.Proofs.Compiler.Referenced
import Playscript.Proofs.Compiler.Sections
import Playscript.Proofs.Directive.Reach
import Playscript.Proofs.Directive.TextSettings
import Playscript.Proofs.Path.Laws
import Playscript.Proofs.Scenario.Reached
import Playscript.Proofs.Session.Announced
import Playscript.Proofs.Session.Consulted
import Playscript.Proofs.Session.Costs
import Playscript.Proofs.Session.Failing
import Playscript.Proofs.Session.History
import Playscript.Proofs.Session.Layers
import Playscript.Proofs.Session.Saving
import Playscript.Proofs.Session.Transcript
import Playscript.Proofs.Session.Twins
import Playscript.Proofs.Staging.Defaults
