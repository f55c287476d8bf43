import CodeSmell.Pattern.GeneralCategory
import CodeSmell.Pattern.Script

/-!
# Properties of characters

A property names a set of code points: a general category by its letters or by its name, a script,
or one of three sets besides. Letter case, blanks, hyphens and underscores in a name make no
difference.
-/

set_option autoImplicit false

namespace CodeSmell

namespace Property

/-- What of a name makes a difference. -/
def looseName (name : List Char) : List Char :=
  (name.filter fun c => c != '_' && c != '-' && c != ' ').map Char.toLower

/-- The value under a name in a list of named values. -/
def findLoosely {α : Type} (name : List Char) (values : List (String × α)) : Option α :=
  (values.find? fun v => looseName v.1.toList == looseName name).map Prod.snd

/-- All code points, those below 128, and those that are assigned. -/
def special : List (String × CharRanges) :=
  [("Any", [(0, lastCodePoint)]), ("ASCII", [(0, 0x7F)]),
    ("Assigned", CharRanges.complement unassigned)]

/-- The code points that have a property. -/
def find? (name : List Char) : Option CharRanges :=
  (findLoosely name special).or <| (findLoosely name generalCategories).or <|
    (findLoosely name scripts).or <|
      (findLoosely name generalCategoryNames).bind fun category =>
        findLoosely category.toList generalCategories

end Property

end CodeSmell
