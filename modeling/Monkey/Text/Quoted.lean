/-!
# Quoted texts

A string is written between double quotes. Nothing in it is escaped, so a string literal cannot hold
a quote.
-/

namespace Monkey

/-- A text in quotes. -/
def quoted (text : String) : String := "\"" ++ text ++ "\""

@[simp]
theorem toList_quoted (text : String) : (quoted text).toList = '"' :: (text.toList ++ ['"']) := by
  simp [quoted]

end Monkey
