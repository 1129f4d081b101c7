import HarnessIndex.Value.Value

/-!
# Documents

What comes of reading a text as a document. A mapping may have keys that are no texts; they stand
for nothing in settings, but they are not lost either. Further inside, where settings pass over all
keys that they do not know, such keys are taken by their written form. A reader says of most texts
that are no document what is wrong with them, and it breaks down on others.
-/

namespace HarnessIndex

/-- What comes of reading a document: a mapping with its entries, and with the keys that are no
texts in their written form; any other value; a text that is no document, with what is wrong with
it; or a reader that breaks down. -/
inductive Document where
  | mapping (entries : List (Text × Value)) (otherKeys : List Text)
  | single (value : Value)
  | malformed (reason : Text)
  | unread (reason : Text)
  deriving Repr, Inhabited

namespace Document

def ofValue : Value → Document
  | .record entries => mapping entries []
  | value => single value

end Document

end HarnessIndex
