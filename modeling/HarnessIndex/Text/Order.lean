import HarnessIndex.Text.Blank

/-!
# The order of texts

Texts are ordered by their first differing characters, a text before its extensions.
-/

namespace HarnessIndex.Text

/-- Whether `left` stands before `right` or is the same text. -/
def precedes : (left right : Text) → Bool
  | [], _ => true
  | _ :: _, [] => false
  | c :: left, d :: right => c.toNat < d.toNat || (c = d && precedes left right)

@[simp] theorem precedes_nil (text : Text) : precedes [] text = true := by
  cases text <;> rfl

@[simp] theorem precedes_self (text : Text) : precedes text text = true := by
  induction text with
  | nil => rfl
  | cons c rest ih => simp [precedes, ih]

end HarnessIndex.Text
