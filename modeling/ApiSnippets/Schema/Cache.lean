import ApiSnippets.Doc
import ApiSnippets.Entries
import ApiSnippets.Text.Cut
/-!
# The cache of documents

Documents that were downloaded before, by their source. White space around a
source is of no account. A cache that is turned off gives nothing and keeps
nothing, and a document whose lifetime is over is not given any more.
-/

namespace ApiSnippets

/-- How downloaded documents are kept. -/
structure Caching where
  enabled : Bool := true
  /-- The lifetime of a document in seconds. -/
  lifetime : Int := 86400
  deriving DecidableEq, Repr

/-- The documents that are kept, by source. -/
abbrev Documents := Entries String Doc

namespace Caching

/-- The document kept for a source. -/
def get? (c : Caching) (source : String) (ds : Documents) : Option Doc :=
  if c.enabled && decide (0 < c.lifetime) then Entries.get? ds (Text.stripped source) else none

/-- The documents with one more. A document whose lifetime was over before it
came is dropped. -/
def put (c : Caching) (source : String) (d : Doc) (ds : Documents) : Documents :=
  if !c.enabled then ds
  else if c.lifetime < 0 then Entries.erase ds (Text.stripped source)
  else Entries.put (Text.stripped source) d ds

/-- The documents without that of a source. -/
def invalidate (c : Caching) (source : String) (ds : Documents) : Documents :=
  if c.enabled then Entries.erase ds (Text.stripped source) else ds

/-- The documents after all are dropped. -/
def clear (c : Caching) (ds : Documents) : Documents :=
  if c.enabled then [] else ds

/-- What there is to say about the documents that are kept in a folder. -/
def stats (c : Caching) (folder : String) (ds : Documents) : Json :=
  if c.enabled then
    .obj [("enabled", .bool true), ("size", .int ds.length),
      ("directory", .str (folder ++ "/documents")), ("ttl_seconds", .int c.lifetime)]
  else .obj [("enabled", .bool false)]

end Caching

end ApiSnippets
