import Logbook.Level

/-!
# Styles of levels

A level is written by its value or by one of its names, which a tag selects.
-/

namespace Logbook

/-- How a level is written. -/
inductive LevelStyle where
  | numeric
  | short
  | shortUpper
  | full
  | fullUpper
  deriving DecidableEq, Repr

namespace LevelStyle

def ofTag? (tag : List Char) : Option LevelStyle :=
  if tag = ['d'] then some numeric
  else if tag = ['s'] then some short
  else if tag = ['S'] then some shortUpper
  else if tag = ['s', 's'] then some full
  else if tag = ['S', 'S'] then some fullUpper
  else none

def text (level : Level) : LevelStyle → String
  | numeric => String.ofList (Text.digits level.value)
  | short => level.shortName
  | shortUpper => level.shortUpperName
  | full => level.name
  | fullUpper => level.upperName

end LevelStyle

end Logbook
