import ApiSnippets.Text.Utf8
/-!
# Line breaks in files

A text file may end its lines with a line feed, a carriage return or both.
Reading makes a line feed of each.
-/

namespace ApiSnippets

namespace Text

/-- The characters with a line feed for every line break. -/
def unifyBreaks : List Char → List Char
  | [] => []
  | ['\r'] => ['\n']
  | '\r' :: '\n' :: cs => '\n' :: unifyBreaks cs
  | '\r' :: cs => '\n' :: unifyBreaks cs
  | c :: cs => c :: unifyBreaks cs

/-- The text of a file, if its octets are UTF-8. -/
def ofFile? (bs : Bytes) : Option String :=
  (Utf8.decode? bs).map fun s => String.ofList (unifyBreaks s.toList)

/-- A text without a carriage return is read as it is. -/
theorem unifyBreaks_of_not_mem (cs : List Char) (h : '\r' ∉ cs) : unifyBreaks cs = cs := by
  fun_induction unifyBreaks cs with
  | case1 => rfl
  | case2 => simp at h
  | case3 => simp at h
  | case4 => simp at h
  | case5 c cs _ _ _ ih => rw [ih fun hc => h (List.mem_cons_of_mem _ hc)]

end Text

end ApiSnippets
