import HarnessIndex.Text.Quoted

/-!
# Grammar packages

A grammar is a package, known by a name whose parts are set apart by dots. Loading a package fails
when it is not there, or when it is there and holds no grammar.
-/

namespace HarnessIndex.Grammar

/-- A package that can be loaded. -/
structure Package where
  name : Text
  hasGrammar : Bool
  deriving DecidableEq, Repr, Inhabited

def installed : List Package :=
  [⟨"tree_sitter_rust", true⟩, ⟨"json", false⟩]

/-- The package that holds the grammar of the language. -/
def standardName : Text := "tree_sitter_rust"

/-- Why a grammar could not be loaded. -/
inductive Defect where
  | nameless
  | relative (name : Text)
  | missing (name : Text)
  | withoutGrammar (name : Text)
  deriving DecidableEq, Repr, Inhabited

namespace Defect

def message : Defect → Text
  | nameless => "Empty module name"
  | relative name =>
      "the 'package' argument is required to perform a relative import for " ++ Text.quoted name
  | missing name => "No module named " ++ Text.quoted name
  | withoutGrammar name => "module " ++ Text.quoted name ++ " has no attribute 'language'"

end Defect

def find? (name : Text) : Option Package :=
  installed.find? fun package => package.name = name

/-- The beginnings of a name that end before a dot or at its end, the shortest one first. -/
def stems (read : Text) : Text → List Text
  | [] => [read]
  | c :: rest =>
      if c = '.' then read :: stems (read ++ [c]) rest else stems (read ++ [c]) rest

/-- The first part of a name that is not there. -/
def missingStem? (name : Text) : Option Text :=
  (stems [] name).find? fun stem => (find? stem).isNone

/-- Why the grammar of a package cannot be loaded, if it cannot. -/
def defect? (name : Text) : Option Defect :=
  if name.isEmpty then some .nameless
  else if Text.startsWith ['.'] name then some (.relative name)
  else
    match missingStem? name with
    | some stem => some (.missing stem)
    | none =>
        match find? name with
        | some package => if package.hasGrammar then none else some (.withoutGrammar name)
        | none => some (.missing name)

end HarnessIndex.Grammar
