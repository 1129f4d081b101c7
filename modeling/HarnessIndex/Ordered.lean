/-!
# Ordered collections

Association lists that remember the order in which their keys came, and a stable sort. A key that is
put in again keeps its place and takes the new value.
-/

namespace HarnessIndex

namespace Assoc

variable {κ : Type} {α : Type} [DecidableEq κ]

/-- Give a key a value: in its place if it is there, else at the end. -/
def put (key : κ) (value : α) : List (κ × α) → List (κ × α)
  | [] => [(key, value)]
  | entry :: rest =>
      if entry.1 = key then (key, value) :: rest else entry :: put key value rest

def get? (key : κ) : List (κ × α) → Option α
  | [] => none
  | entry :: rest => if entry.1 = key then some entry.2 else get? key rest

/-- Take a key out. -/
def drop (key : κ) : List (κ × α) → List (κ × α)
  | [] => []
  | entry :: rest => if entry.1 = key then rest else entry :: drop key rest

def has (key : κ) (entries : List (κ × α)) : Bool :=
  (get? key entries).isSome

/-- Put several entries in, one after the other. -/
def ofList (entries : List (κ × α)) : List (κ × α) :=
  entries.foldl (fun known entry => put entry.1 entry.2 known) []

@[simp] theorem put_nil (key : κ) (value : α) : put key value [] = [(key, value)] := rfl

@[simp] theorem get?_nil (key : κ) : get? key ([] : List (κ × α)) = none := rfl

@[simp] theorem get?_put_self (key : κ) (value : α) (entries : List (κ × α)) :
    get? key (put key value entries) = some value := by
  induction entries with
  | nil => simp [put, get?]
  | cons entry rest ih =>
      by_cases same : entry.1 = key
      · simp [put, get?, same]
      · simp [put, get?, same, ih]

theorem get?_put_of_ne {key other : κ} (different : key ≠ other) (value : α)
    (entries : List (κ × α)) : get? other (put key value entries) = get? other entries := by
  induction entries with
  | nil => simp [put, get?, different]
  | cons entry rest ih =>
      by_cases same : entry.1 = key
      · subst same
        simp [put, get?, different]
      · simp [put, get?, same, ih]

end Assoc

namespace Stable

variable {α : Type}

/-- Put a value before the first one that it may precede. -/
def insert (le : α → α → Bool) (value : α) : List α → List α
  | [] => [value]
  | next :: rest => if le value next then value :: next :: rest else next :: insert le value rest

/-- Sort a list; values of equal rank keep their order. -/
def sort (le : α → α → Bool) : List α → List α
  | [] => []
  | value :: rest => insert le value (sort le rest)

/-- Sort a list by a number that each value has. -/
def sortOn (rank : α → Nat) (values : List α) : List α :=
  sort (fun left right => rank left ≤ rank right) values

@[simp] theorem sort_nil (le : α → α → Bool) : sort le [] = [] := rfl

theorem length_insert (le : α → α → Bool) (value : α) (values : List α) :
    (insert le value values).length = values.length + 1 := by
  induction values with
  | nil => rfl
  | cons next rest ih =>
      simp only [insert]
      split
      · rfl
      · simp [ih]

@[simp] theorem length_sort (le : α → α → Bool) (values : List α) :
    (sort le values).length = values.length := by
  induction values with
  | nil => rfl
  | cons value rest ih => simp [sort, length_insert, ih]

end Stable

end HarnessIndex
