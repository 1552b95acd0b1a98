import SchemaForm.Regex.Parser
import SchemaForm.Schema.Match

/-!
# The expressions of the program

The `Patterns` that the command line matches data by: expressions of `Regex`, with the classes of
Unicode. Only what is said of fixed inputs goes by them.
-/

namespace SchemaForm

/-- Patterns are read by `Regex.parse?` and searched by `Regex.search`. -/
instance Regex.patterns : Patterns where
  search? pattern := (Regex.parse? pattern).map Regex.search

end SchemaForm
