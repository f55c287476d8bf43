import CodeSmell.Yaml.Document
import CodeSmell.Yaml.Writer

/-!
# Documents as bytes

A codec writes tables as bytes and reads documents from bytes. What is stored through a codec does
not depend on how it spells documents.
-/

set_option autoImplicit false

namespace CodeSmell

namespace Yaml

/-- A way to write tables and to read documents. There may be no document in a text. -/
structure Codec where
  write : List (Text × Value) → Text
  read : Text → Except Problem (Option Document)

/-- Tables in block style, and documents in UTF-8. -/
def codec : Codec where
  write fields := writeFields 0 fields
  read content :=
    match content.toString? with
    | some text => Document.read text.toList
    | none => .error ⟨0, "invalid leading UTF-8 octet"⟩

end Yaml

end CodeSmell
