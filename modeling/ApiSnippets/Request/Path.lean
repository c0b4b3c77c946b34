import ApiSnippets.Text.Nesting
/-!
# Paths

A path is a sequence of non-empty segments between slashes. A slash inside
the parentheses of a call, or inside a quoted argument there, belongs to the
segment.
-/

namespace ApiSnippets

namespace Path

/-- The segments of a path, as characters. -/
def segmentsOf (cs : List Char) : List (List Char) :=
  (Text.cutOutside true '/' .outside cs).filter fun s => !s.isEmpty

/-- The segments of a path. -/
def segments (path : String) : List String :=
  (segmentsOf path.toList).map String.ofList

/-- The path with these segments. -/
def ofSegments (segs : List String) : String :=
  "/" ++ String.intercalate "/" segs

/-- The path one segment below another. -/
def below (path segment : String) : String :=
  (if path = "/" then "" else path) ++ "/" ++ segment

end Path

end ApiSnippets
