import RespCache.Cache
import RespCache.Text.Listing

/-!
Caches as text. Only the sizes are shown, never the entries.
-/

namespace RespCache

universe u v

variable {κ : Type u} {ν : Type v} [BEq κ] [Hashable κ]

/-- How full the cache is. -/
def Cache.display (layout : Text.Layout) (c : Cache κ ν) : String :=
  Text.summary layout "LruCache" [("len", c.size), ("capacity", c.capacity)]

end RespCache
