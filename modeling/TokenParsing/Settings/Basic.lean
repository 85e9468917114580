import TokenParsing.Span

/-!
# Settings

A settings file gives values to keys, one to a line. Its entries are kept in the order of the file; of several entries
for a key the last one counts.
-/

namespace TokenParsing

/-- The value of a setting. -/
inductive Settings.Value where
  /-- A string. -/
  | string (s : String)
  /-- A whole number of 64 bits with a sign. -/
  | integer (n : Int)
  /-- A truth value. -/
  | boolean (b : Bool)
  deriving DecidableEq, Repr

/-- A line that gives a value to a key. -/
structure Settings.Entry where
  /-- The key. -/
  key : String
  /-- Its value. -/
  value : Settings.Value
  /-- The characters of the key. -/
  span : Span
  deriving DecidableEq, Repr

/-- The entries of a settings file. -/
structure Settings where
  /-- The entries, in the order of the file. -/
  entries : List Settings.Entry
  deriving DecidableEq, Repr

namespace Settings

/-- The value of a key, if it has one: that of its last entry. -/
def get? (settings : Settings) (key : String) : Option Value :=
  (settings.entries.reverse.find? fun e => e.key == key).map Entry.value

end Settings

end TokenParsing
