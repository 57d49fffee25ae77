import Fapolicyd.Library.CLib
import Fapolicyd.Rules.Record
import Fapolicyd.Rules.Parse
import Fapolicyd.Rules.ParseFacts
import Fapolicyd.Rules.Refused
import Fapolicyd.Rules.Legacy
import Fapolicyd.Rules.Canonical
import Fapolicyd.Store.LList
import Fapolicyd.Store.Chain
import Fapolicyd.Store.Refine
import Fapolicyd.Store.Ownership
import Fapolicyd.Store.Sanity
import Fapolicyd.Store.Exit
import Fapolicyd.Eval.Event
import Fapolicyd.Eval.Dirs
import Fapolicyd.Eval.Pattern
import Fapolicyd.Eval.Evaluate
import Fapolicyd.Eval.Attributes
import Fapolicyd.Eval.Settled
import Fapolicyd.Eval.Decide
import Fapolicyd.Eval.Reload
