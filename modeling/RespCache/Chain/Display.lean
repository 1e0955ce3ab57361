import RespCache.Chain
import RespCache.Text.Listing

/-!
Chains as text.
-/

namespace RespCache

universe u

variable {α : Type u}

def Chain.display (layout : Text.Layout) (text : α → String) (c : Chain α) : String :=
  Text.listing layout (c.toList.map text)

end RespCache
