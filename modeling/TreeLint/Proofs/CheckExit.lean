import TreeLint.Command.Run
import TreeLint.Proofs.DumpLines

/-!
# The exit code of a check

A check first selects its rules.  A name that no built-in rule has ends it at
once, before any dump is looked at.  Otherwise the dumps are collected and
analysed, and their report is written out.  The exit code is taken from the
report and not from the document, but a report files no empty entries, so
whoever reads the document finds there what the code says.
-/

namespace TreeLint

/-! ## Selecting rules -/

namespace Catalog

end Catalog

/-! ## Exit codes and documents -/

namespace Report

end Report

/-! ## Checks -/

namespace Command

variable {world : World} {arguments : List String} {loaded : Settings.Loaded}
  {options : CheckOptions}

end Command

end TreeLint
