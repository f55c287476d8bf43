import CodeSmell.Pattern.RegexReader
import CodeSmell.Settings.Basic

/-!
# Allowed calls

An entry of an allow list is a signature, or a regular expression between slashes, which is looked
for anywhere in a signature.
-/

set_option autoImplicit false

namespace CodeSmell

/-- The regular expression of an entry that is written between slashes. -/
def patternOf? (entry : Text) : Option Text :=
  match entry with
  | 0x2F :: rest =>
    match rest.reverse with
    | 0x2F :: body => some body.reverse
    | _ => none
  | _ => none

/-- Whether an entry allows a signature; a pattern that cannot be read allows nothing. -/
def entryAllows (signature entry : Text) : Bool :=
  match patternOf? entry with
  | none => entry = signature
  | some pattern =>
    match Regex.read pattern with
    | .ok r => r.matchesIn signature
    | .error _ => false

/-- Whether the options allow a signature to be repeated. -/
def SmellOptions.allows (o : SmellOptions) (signature : Text) : Bool :=
  (o.allowCalls.getD []).any (entryAllows signature)

end CodeSmell
