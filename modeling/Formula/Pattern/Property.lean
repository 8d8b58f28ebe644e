import Formula.Pattern.CharSet

/-!
# `Formula.Pattern.Property` — sets of characters with a property

A pattern may ask for the characters of a category, of a script, or with one of many other properties. Which ones these
are is said by tables that change with each version of Unicode and fill far more pages than all else here. They are
taken as given: patterns are read with whatever tables there are.

## Contents
- `PropertyTables` — what is asked of the tables.
- `PropertyTables.listed` — those properties that have a set of their own here, for running.
-/

namespace Formula

/-- Why the tables have no set. -/
inductive PropertyError where
  /-- There is no such property. -/
  | nameUnknown
  /-- There is such a property, but it does not have this value. -/
  | valueUnknown
deriving DecidableEq, Repr

/-- **Tables of properties.** They are asked by what a pattern has behind `\p`, which is one letter or the text between
    braces: a value such as `Greek`, or a property with a value such as `script=Greek`. -/
class PropertyTables where
  find : String → Except PropertyError CharSet

namespace PropertyTables

/-- A name without what its spelling is free in: case, blanks, hyphens, underscores and `is` at the front. -/
def looseName (name : String) : String :=
  let cs := name.toList.map Char.toLower
  let cs := if ['i', 's'].isPrefixOf cs then cs.drop 2 else cs
  String.ofList (cs.filter fun c => c.toNat < 128 && c != ' ' && c != '-' && c != '_')

/-- The properties that have a set here, by their loose names. -/
def listed : List (String × CharSet) := [
  ("any", .all),
  ("ascii", .namedAscii "ascii"),
  ("nd", .digits), ("decimalnumber", .digits), ("digit", .digits),
  ("whitespace", .blanks), ("wspace", .blanks), ("space", .blanks)]

/-- The tables to run with, where no others are given. To them a property that is not listed is unknown. -/
instance ofListed : PropertyTables where
  find name := (listed.lookup (looseName name)).elim (.error .nameUnknown) .ok

end PropertyTables

end Formula
