/-
  File:      Retro24/Name.lean
  Subject:   Names typed by people, compared without regard to case.

  * `Name.fold`: the lower case of a text, as far as ASCII letters take part in it.
  * `Name.lookup?`: the entry of a table whose name is the folded text.

  Every name in a table is written with small ASCII letters, so a character matters only if its
  lower case contains one. Outside ASCII there are two: U+212A, the Kelvin sign, whose lower case
  is `k`, and U+0130, whose lower case is `i` with a combining dot above. Every other character
  outside ASCII has no small ASCII letter in its lower case, and is left as it is.
-/

namespace Retro24.Name

/-- The lower case of a character, one or two characters. -/
def foldChar (c : Char) : List Char :=
  if c = '\u212A' then ['k']
  else if c = '\u0130' then ['i', '\u0307']
  else [c.toLower]

/-- The lower case of a text. -/
def fold (s : String) : String := String.ofList (s.toList.flatMap foldChar)

/-- The entry of a table under a name, in whatever case the name is typed. -/
def lookup? {α : Type} (table : List (String × α)) (name : String) : Option α :=
  table.lookup (fold name)

/-- Whether two texts are the same up to the case of ASCII letters. -/
def sameAscii (s t : String) : Bool := s.toList.map Char.toLower == t.toList.map Char.toLower

end Retro24.Name
