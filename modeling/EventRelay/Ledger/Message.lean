/-!
# Stored error messages

The last error of a row is kept with at most 500 characters of its text; a longer one is cut there
and marked.
-/

namespace EventRelay.Message

/-- How many characters of an error are kept. -/
def limit : Nat := 500

/-- What follows a text that was cut. -/
def marker : String := "...(truncated)"

/-- The text, or its first characters and the marker. -/
def truncate (text : String) : String :=
  if text.length ≤ limit then text
  else String.ofList (text.toList.take limit) ++ marker

end EventRelay.Message
