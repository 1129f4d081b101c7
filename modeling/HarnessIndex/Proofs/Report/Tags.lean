import HarnessIndex.Report.Markup
import Mathlib.Data.List.DropRight
import Mathlib.Data.List.Basic

/-!
# The tags of a text with markup

A text is read character by character: a bracket after an even number of backslashes opens a tag,
the characters of a tag go on with it, and the next closing bracket closes it. The tags that are
closed are those of the pieces. An escaped text has no tags by itself, but it can leave a tag open,
and it can close one that is open in front of it, as the text could before it was escaped.
-/

namespace HarnessIndex.Markup

open Text

def Piece.tag? : Piece → Option Text
  | plain _ => none
  | kept _ => none
  | tag inside => some inside

/-- The insides of the tags of a text, in order. -/
def tags (text : Text) : List Text :=
  (pieces text).filterMap Piece.tag?

@[simp] theorem tags_nil : tags [] = [] := rfl

/-- A text without brackets. -/
def NoBracket (text : Text) : Prop :=
  '[' ∉ text ∧ ']' ∉ text

instance (text : Text) : Decidable (NoBracket text) :=
  inferInstanceAs (Decidable (_ ∧ _))

/-- What can stand between the brackets of a tag. -/
def IsInside (text : Text) : Prop :=
  NoBracket text ∧ text.head?.any startsTag = true

instance (text : Text) : Decidable (IsInside text) :=
  inferInstanceAs (Decidable (_ ∧ _))

@[simp] theorem noBracket_nil : NoBracket [] := by
  simp [NoBracket]

@[simp] theorem noBracket_cons {c : Char} {text : Text} :
    NoBracket (c :: text) ↔ (c ≠ '[' ∧ c ≠ ']') ∧ NoBracket text := by
  simp only [NoBracket, List.mem_cons, not_or, ne_eq, eq_comm]
  tauto

@[simp] theorem noBracket_append {front back : Text} :
    NoBracket (front ++ back) ↔ NoBracket front ∧ NoBracket back := by
  simp only [NoBracket, List.mem_append, not_or]
  tauto

/-- The first bracket of a text is a closing one: a tag that is open in front of it is closed. -/
def ClosesTag (text : Text) : Prop :=
  ∃ front back, text = front ++ ']' :: back ∧ NoBracket front

@[simp] theorem not_closesTag_nil : ¬ ClosesTag [] := by
  simp [ClosesTag]

@[simp] theorem closesTag_cons {c : Char} {text : Text} :
    ClosesTag (c :: text) ↔ c = ']' ∨ c ≠ '[' ∧ ClosesTag text := by
  constructor
  · rintro ⟨_ | ⟨d, front⟩, back, same, plain⟩
    · exact .inl (List.cons.inj same).1
    · obtain ⟨rfl, rfl⟩ := List.cons.inj same
      obtain ⟨other, plain⟩ := noBracket_cons.mp plain
      exact .inr ⟨other.1, front, back, rfl, plain⟩
  · rintro (rfl | ⟨opens, front, back, rfl, plain⟩)
    · exact ⟨[], text, rfl, noBracket_nil⟩
    · by_cases closes : c = ']'
      · exact ⟨[], _, by rw [closes]; rfl, noBracket_nil⟩
      · exact ⟨c :: front, back, rfl, noBracket_cons.mpr ⟨⟨opens, closes⟩, plain⟩⟩

theorem closesTag_append {front back : Text} :
    ClosesTag (front ++ back) ↔ ClosesTag front ∨ NoBracket front ∧ ClosesTag back := by
  induction front with
  | nil => simp
  | cons c front ih =>
      rw [List.cons_append, closesTag_cons, closesTag_cons, noBracket_cons, ih]
      tauto

theorem not_bracket_of_startsTag {c : Char} (starts : startsTag c = true) : c ≠ '[' ∧ c ≠ ']' := by
  constructor <;> rintro rfl <;> exact absurd starts (by decide)

/-! ## Reading a text -/

/-- What has been read of a text: how many backslashes stand at its end, and what stands in the tag
that is open there. -/
structure Reading where
  slashes : Nat
  inside : Option Text
  deriving DecidableEq, Repr

/-- What stands in a tag after one more character, which is no bracket. -/
def extend (inside : Option Text) (c : Char) : Option Text :=
  inside.bind fun read => if read.isEmpty && !startsTag c then none else some (read ++ [c])

theorem extend_of_starts {c : Char} (starts : startsTag c = true) :
    extend (some []) c = some [c] := by
  simp [extend, starts]

theorem extend_of_not_starts {c : Char} (other : startsTag c = false) :
    extend (some []) c = none := by
  simp [extend, other]

@[simp] theorem foldl_extend_none (text : Text) : text.foldl extend none = none := by
  induction text with
  | nil => rfl
  | cons c rest ih => exact ih

/-- Everything goes on with a tag of which something has been read. -/
@[simp] theorem foldl_extend_cons (c : Char) (read text : Text) :
    text.foldl extend (some (c :: read)) = some (c :: read ++ text) := by
  induction text generalizing read with
  | nil => simp
  | cons d rest ih =>
      have longer : extend (some (c :: read)) d = some (c :: (read ++ [d])) := by simp [extend]
      rw [List.foldl_cons, longer, ih]
      simp

/-- What goes on with a tag that has just been opened. -/
theorem foldl_extend_opened (c : Char) (text : Text) :
    (c :: text).foldl extend (some []) = if startsTag c then some (c :: text) else none := by
  rw [List.foldl_cons]
  split
  case isTrue starts => rw [extend_of_starts starts, foldl_extend_cons, List.singleton_append]
  case isFalse other => rw [extend_of_not_starts (by simpa using other), foldl_extend_none]

theorem noBracket_or_first (text : Text) :
    NoBracket text ∨ ∃ front c back, text = front ++ c :: back ∧ NoBracket front ∧
      (c = '[' ∨ c = ']') := by
  induction text with
  | nil => exact .inl noBracket_nil
  | cons c rest ih =>
      by_cases bracket : c = '[' ∨ c = ']'
      · exact .inr ⟨[], c, rest, rfl, noBracket_nil, bracket⟩
      · rw [not_or] at bracket
        obtain plain | ⟨front, d, back, rfl, plain, first⟩ := ih
        · exact .inl (noBracket_cons.mpr ⟨bracket, plain⟩)
        · exact .inr ⟨c :: front, d, back, rfl, noBracket_cons.mpr ⟨bracket, plain⟩, first⟩

theorem noBracket_or_last (text : Text) :
    NoBracket text ∨ ∃ front c back, text = front ++ c :: back ∧ NoBracket back ∧
      (c = '[' ∨ c = ']') := by
  obtain plain | ⟨front, c, back, same, plain, bracket⟩ := noBracket_or_first text.reverse
  · exact .inl (by simpa [NoBracket] using plain)
  · have turned : text = back.reverse ++ c :: front.reverse := by
      simpa using congrArg List.reverse same
    exact .inr ⟨back.reverse, c, front.reverse, turned, by simpa [NoBracket] using plain, bracket⟩

namespace Reading

/-- Nothing has been read that matters. -/
def start : Reading :=
  ⟨0, none⟩

/-- Read one more character. -/
def next (reading : Reading) (c : Char) : Reading :=
  if c = '[' then ⟨0, if reading.slashes % 2 = 0 then some [] else none⟩
  else if c = ']' then start
  else ⟨if c = backslash then reading.slashes + 1 else 0, extend reading.inside c⟩

/-- The tag that a character closes. -/
def closed? (reading : Reading) (c : Char) : Option Text :=
  if c = ']' then reading.inside.filter fun read => !read.isEmpty else none

/-- Read a text. -/
def after (reading : Reading) (text : Text) : Reading :=
  text.foldl next reading

/-- The tags that a text closes. -/
def tagsFrom (reading : Reading) : Text → List Text
  | [] => []
  | c :: rest => (reading.closed? c).toList ++ tagsFrom (reading.next c) rest

variable {reading : Reading} {slashes : Nat} {inside : Option Text}

@[simp] theorem after_nil : reading.after [] = reading := rfl

@[simp] theorem after_cons (c : Char) (rest : Text) :
    reading.after (c :: rest) = (reading.next c).after rest := rfl

@[simp] theorem after_append (front back : Text) :
    reading.after (front ++ back) = (reading.after front).after back :=
  List.foldl_append

@[simp] theorem tagsFrom_nil : reading.tagsFrom [] = [] := rfl

theorem tagsFrom_append (front back : Text) :
    reading.tagsFrom (front ++ back) =
      reading.tagsFrom front ++ (reading.after front).tagsFrom back := by
  induction front generalizing reading with
  | nil => rfl
  | cons c front ih => rw [List.cons_append, tagsFrom, ih, tagsFrom, List.append_assoc, after_cons]

@[simp] theorem next_open :
    reading.next '[' = ⟨0, if reading.slashes % 2 = 0 then some [] else none⟩ :=
  rfl

@[simp] theorem next_close : reading.next ']' = start := rfl

theorem next_of_ne {c : Char} (other : c ≠ '[' ∧ c ≠ ']') :
    reading.next c =
      ⟨if c = backslash then reading.slashes + 1 else 0, extend reading.inside c⟩ := by
  rw [next, if_neg other.1, if_neg other.2]

@[simp] theorem next_backslash :
    reading.next backslash = ⟨reading.slashes + 1, extend reading.inside backslash⟩ := by
  rw [next_of_ne (by decide), if_pos rfl]

theorem slashes_next (reading : Reading) (c : Char) :
    (reading.next c).slashes = if c = backslash then reading.slashes + 1 else 0 := by
  by_cases opens : c = '['
  · rw [opens]
    rfl
  · by_cases closes : c = ']'
    · rw [closes]
      rfl
    · rw [next_of_ne ⟨opens, closes⟩]

theorem next_of_ne_backslash {c : Char} (slash : c ≠ backslash) (reading : Reading) :
    reading.next c = ⟨0, (reading.next c).inside⟩ := by
  have ended := reading.slashes_next c
  rw [if_neg slash] at ended
  rw [← ended]

theorem inside_next {c : Char} (opens : c ≠ '[') : (next ⟨slashes, none⟩ c).inside = none := by
  rw [next, if_neg opens]
  split <;> rfl

theorem closed?_of_ne {c : Char} (other : c ≠ ']') : reading.closed? c = none :=
  if_neg other

@[simp] theorem closed?_start (c : Char) : closed? ⟨slashes, none⟩ c = none := by
  rw [closed?]
  split <;> rfl

/-- The tag that a text closes, where one is open in front of it. -/
def closing? (inside : Option Text) : Text → Option Text
  | [] => none
  | c :: rest =>
      if c = '[' then none
      else if c = ']' then inside.filter fun read => !read.isEmpty
      else closing? (extend inside c) rest

@[simp] theorem closing?_none (text : Text) : closing? none text = none := by
  induction text with
  | nil => rfl
  | cons c rest ih =>
      rw [closing?]
      split
      · rfl
      · split
        · rfl
        · exact ih

@[simp] theorem closing?_open (inside : Option Text) (back : Text) :
    closing? inside ('[' :: back) = none := rfl

@[simp] theorem closing?_close (inside : Option Text) (back : Text) :
    closing? inside (']' :: back) = inside.filter fun read => !read.isEmpty := rfl

theorem closing?_append {front : Text} (plain : NoBracket front) (inside : Option Text)
    (back : Text) :
    closing? inside (front ++ back) = closing? (front.foldl extend inside) back := by
  induction front generalizing inside with
  | nil => rfl
  | cons c front ih =>
      obtain ⟨other, plain⟩ := noBracket_cons.mp plain
      rw [List.cons_append, closing?, if_neg other.1, if_neg other.2, ih plain, List.foldl_cons]

theorem closing?_noBracket {text : Text} (plain : NoBracket text) (inside : Option Text) :
    closing? inside text = none := by
  simpa [closing?] using closing?_append plain inside []

/-- A tag that is open in front of a text makes a difference at the first bracket only. -/
theorem tagsFrom_eq (slashes : Nat) (inside : Option Text) (text : Text) :
    tagsFrom ⟨slashes, inside⟩ text =
      (closing? inside text).toList ++ tagsFrom ⟨slashes, none⟩ text := by
  induction text generalizing slashes inside with
  | nil => rfl
  | cons c rest ih =>
      rw [tagsFrom, closing?, tagsFrom, closed?_start]
      -- any bracket makes both readings the same, so the induction is needed up to the first only
      by_cases opens : c = '['
      · simp [opens, closed?]
      · by_cases closes : c = ']'
        · simp [closes, closed?]
        · rw [closed?_of_ne closes, if_neg opens, if_neg closes, next_of_ne ⟨opens, closes⟩,
            next_of_ne ⟨opens, closes⟩, ih]
          rfl

/-- Behind a closing bracket nothing that stands before it matters. -/
theorem after_closed (reading : Reading) (front back : Text) :
    reading.after (front ++ ']' :: back) = start.after back := by
  rw [after_append, after_cons, next_close]

/-- Where no tag is open and none is opened, none is closed. -/
theorem tagsFrom_plain {front : Text} (plain : NoBracket front) (slashes : Nat) (back : Text) :
    tagsFrom ⟨slashes, none⟩ (front ++ ']' :: back) = start.tagsFrom back := by
  induction front generalizing slashes with
  | nil => simp [tagsFrom]
  | cons c front ih =>
      obtain ⟨other, plain⟩ := noBracket_cons.mp plain
      rw [List.cons_append, tagsFrom, closed?_start, next_of_ne other]
      exact ih plain _

/-- A tag of which something has been read is closed where the first bracket closes. -/
theorem closing?_cons_ne_none {c : Char} {read text : Text} :
    closing? (some (c :: read)) text ≠ none ↔ ClosesTag text := by
  constructor
  · intro closes
    obtain plain | ⟨front, d, back, rfl, plain, rfl | rfl⟩ := noBracket_or_first text
    · exact absurd (closing?_noBracket plain _) closes
    · exact absurd (by rw [closing?_append plain, closing?_open]) closes
    · exact ⟨front, back, rfl, plain⟩
  · rintro ⟨front, back, rfl, plain⟩
    rw [closing?_append plain, foldl_extend_cons, closing?_close]
    simp

/-- A tag that has just been opened is closed behind its inside. -/
theorem closing?_opened {text inside : Text} :
    closing? (some []) text = some inside ↔
      ∃ back, text = inside ++ ']' :: back ∧ IsInside inside := by
  constructor
  · intro closes
    obtain plain | ⟨front, d, back, rfl, plain, rfl | rfl⟩ := noBracket_or_first text
    · rw [closing?_noBracket plain] at closes
      simp at closes
    · rw [closing?_append plain, closing?_open] at closes
      simp at closes
    · rw [closing?_append plain, closing?_close] at closes
      rcases front with _ | ⟨c, front⟩
      · simp at closes
      · rw [foldl_extend_opened] at closes
        split at closes
        case isTrue starts =>
          obtain ⟨rfl, -⟩ : c :: front = inside ∧ inside ≠ [] := by simpa using closes
          exact ⟨back, rfl, plain, starts⟩
        case isFalse => simp at closes
  · rintro ⟨back, rfl, plain, begins⟩
    rcases inside with _ | ⟨c, inside⟩
    · simp at begins
    · have starts : startsTag c = true := begins
      rw [closing?_append plain, foldl_extend_opened, if_pos starts, closing?_close]
      simp

theorem tagsFrom_noBracket {text : Text} (plain : NoBracket text) (reading : Reading) :
    reading.tagsFrom text = [] := by
  induction text generalizing reading with
  | nil => rfl
  | cons c rest ih =>
      obtain ⟨other, plain⟩ := noBracket_cons.mp plain
      rw [tagsFrom, closed?_of_ne other.2, ih plain]
      rfl

end Reading

/-! ## The tags are those of the pieces -/

theorem takeWhile_tag {front : Text} (plain : NoBracket front) (back : Text) :
    (front ++ back).takeWhile (fun c => c ≠ ']' && c ≠ '[') =
      front ++ back.takeWhile fun c => c ≠ ']' && c ≠ '[' := by
  apply List.takeWhile_append_of_pos
  intro c member
  have opens : c ≠ '[' := fun same => plain.1 (same ▸ member)
  have closes : c ≠ ']' := fun same => plain.2 (same ▸ member)
  simp [opens, closes]

/-- A tag is as long as what is closed behind an opening bracket. -/
theorem tagLength?_eq (text : Text) :
    tagLength? text = (Reading.closing? (some []) text).map List.length := by
  rcases text with _ | ⟨first, rest⟩
  · rfl
  · rw [tagLength?]
    split
    case isTrue starts =>
      have plainFirst := noBracket_cons.mpr ⟨not_bracket_of_startsTag starts, noBracket_nil⟩
      rw [← List.singleton_append, Reading.closing?_append plainFirst, foldl_extend_opened,
        if_pos starts]
      obtain plain | ⟨front, d, back, rfl, plain, rfl | rfl⟩ := noBracket_or_first rest
      · have all := takeWhile_tag plain []
        rw [List.append_nil] at all
        dsimp only
        rw [all, Reading.closing?_noBracket plain]
        simp
      · dsimp only
        rw [takeWhile_tag plain, Reading.closing?_append plain]
        simp
      · dsimp only
        rw [takeWhile_tag plain, Reading.closing?_append plain]
        simp [Option.filter]
    case isFalse other =>
      rw [Reading.closing?, extend_of_not_starts (by simpa using other), Reading.closing?_none]
      split
      · rfl
      · split <;> rfl

/-- A tag is found where the inside of one and a closing bracket come first. -/
theorem tagLength?_eq_some {text : Text} {size : Nat} :
    tagLength? text = some size ↔
      ∃ inside back, text = inside ++ ']' :: back ∧ IsInside inside ∧ inside.length = size := by
  rw [tagLength?_eq, Option.map_eq_some_iff]
  simp only [Reading.closing?_opened]
  constructor
  · rintro ⟨inside, ⟨back, same, isInside⟩, length⟩
    exact ⟨inside, back, same, isInside, length⟩
  · rintro ⟨inside, back, same, isInside, length⟩
    exact ⟨inside, ⟨back, same, isInside⟩, length⟩

theorem closing?_of_tagLength? {text : Text} (none : tagLength? text = none) :
    Reading.closing? (some []) text = .none := by
  rwa [tagLength?_eq, Option.map_eq_none_iff] at none

namespace Reading

variable {slashes : Nat}

/-- A tag is found unless the last backslash in front of it takes its meaning away. -/
theorem tagsFrom_tag {inside : Text} (isInside : IsInside inside) (back : Text) :
    tagsFrom ⟨slashes, none⟩ ('[' :: (inside ++ ']' :: back)) =
      (if slashes % 2 = 0 then [inside] else []) ++ start.tagsFrom back := by
  have closes : closing? (some []) (inside ++ ']' :: back) = some inside :=
    closing?_opened.mpr ⟨back, rfl, isInside⟩
  rw [tagsFrom, closed?_start, next_open, tagsFrom_eq, tagsFrom_plain isInside.1]
  dsimp only
  split
  · rw [closes]
    rfl
  · rw [closing?_none]
    rfl

/-- A bracket with no tag behind it is like any other character. -/
theorem tagsFrom_loose {rest : Text} (loose : tagLength? rest = none) :
    tagsFrom ⟨slashes, none⟩ ('[' :: rest) = start.tagsFrom rest := by
  rw [tagsFrom, closed?_start, next_open, tagsFrom_eq]
  dsimp only
  split
  · rw [closing?_of_tagLength? loose]
    rfl
  · rw [closing?_none]
    rfl

end Reading

@[simp] theorem filterMap_addPlain (text : Text) (pieces : List Piece) :
    (addPlain text pieces).filterMap Piece.tag? = pieces.filterMap Piece.tag? := by
  unfold addPlain
  split
  · rfl
  · rcases pieces with _ | ⟨_ | _ | _, _⟩ <;> rfl

theorem piecesFrom_skipped (front back : Text) :
    piecesFrom 0 front.length (front ++ back) = piecesFrom 0 0 back := by
  induction front with
  | nil => rfl
  | cons c front ih => rw [List.cons_append, List.length_cons, piecesFrom, ih]

/-- A tag is a piece of its own, or it is kept with half of the backslashes in front of it. -/
theorem piecesFrom_tag {inside : Text} (isInside : IsInside inside) (slashes : Nat) (back : Text) :
    piecesFrom slashes 0 ('[' :: (inside ++ ']' :: back)) =
      .kept (List.replicate (slashes / 2) backslash) ::
        (if slashes % 2 = 1 then .kept ('[' :: (inside ++ [']'])) else .tag inside) ::
          piecesFrom 0 0 back := by
  have found : tagLength? (inside ++ ']' :: back) = some inside.length :=
    tagLength?_eq_some.mpr ⟨inside, back, rfl, isInside, rfl⟩
  have size : inside.length + 1 = (inside ++ [']']).length := by simp
  have joined : inside ++ ']' :: back = (inside ++ [']']) ++ back := by simp
  rw [piecesFrom, if_neg (by decide), if_pos rfl, found]
  dsimp only
  rw [List.take_left, joined, size, List.take_left, piecesFrom_skipped]

open Reading in
/-- Taking a text apart finds the tags that reading it closes. -/
theorem filterMap_piecesFrom (slashes : Nat) (text : Text) :
    (piecesFrom slashes 0 text).filterMap Piece.tag? = tagsFrom ⟨slashes, none⟩ text := by
  -- a tag is passed over as a whole, so the induction is on the length
  induction length : text.length using Nat.strong_induction_on generalizing slashes text with
  | _ size ih =>
    subst length
    rcases text with _ | ⟨c, rest⟩
    · rw [piecesFrom, filterMap_addPlain]
      rfl
    · have later (slashes : Nat) : (piecesFrom slashes 0 rest).filterMap Piece.tag? =
          tagsFrom ⟨slashes, none⟩ rest :=
        ih _ (by rw [List.length_cons]; omega) _ _ rfl
      by_cases opens : c = '['
      · subst opens
        cases found : tagLength? rest with
        | none =>
            rw [tagsFrom_loose found, piecesFrom, if_neg (by decide), if_pos rfl, found]
            exact (filterMap_addPlain _ _).trans (later 0)
        | some length =>
            obtain ⟨inside, back, rfl, isInside, rfl⟩ := tagLength?_eq_some.mp found
            have behind : back.length < ('[' :: (inside ++ ']' :: back)).length := by
              simp only [List.length_cons, List.length_append]
              omega
            have after : (piecesFrom 0 0 back).filterMap Piece.tag? = start.tagsFrom back :=
              ih _ behind _ _ rfl
            rw [piecesFrom_tag isInside, tagsFrom_tag isInside, ← after]
            split
            case isTrue odd => rw [if_neg (by omega)]; rfl
            case isFalse even => rw [if_pos (by omega)]; rfl
      · rw [piecesFrom, if_neg opens, tagsFrom, closed?_start]
        split
        case isTrue slash =>
          subst slash
          exact later _
        case isFalse slash =>
          rw [filterMap_addPlain, later, next_of_ne_backslash slash, inside_next opens]
          rfl

theorem tags_eq (text : Text) : tags text = Reading.start.tagsFrom text :=
  filterMap_piecesFrom 0 text

/-- An even number of backslashes stands at the end of a text. -/
def EndsEvenly (text : Text) : Prop :=
  (text.rtakeWhile fun c => c = backslash).length % 2 = 0

instance (text : Text) : Decidable (EndsEvenly text) :=
  inferInstanceAs (Decidable (_ = _))

namespace Reading

/-- An open tag makes no difference to the backslashes. -/
theorem slashes_after_congr {reading other : Reading} (same : reading.slashes = other.slashes)
    (text : Text) : (reading.after text).slashes = (other.after text).slashes := by
  induction text generalizing reading other with
  | nil => exact same
  | cons c rest ih => exact ih (by rw [slashes_next, slashes_next, same])

theorem slashes_after (text : Text) :
    (start.after text).slashes = (text.rtakeWhile fun c => c = backslash).length := by
  induction text using List.reverseRecOn with
  | nil => rfl
  | append_singleton front c ih =>
      rw [after_append, after_cons, after_nil, slashes_next]
      split
      case isTrue slash => rw [List.rtakeWhile_concat_pos _ _ _ (by simpa using slash), ih]; simp
      case isFalse slash => rw [List.rtakeWhile_concat_neg _ _ _ (by simpa using slash)]; rfl

theorem mem_tagsFrom {slashes : Nat} {inside text : Text} :
    inside ∈ tagsFrom ⟨slashes, none⟩ text ↔
      ∃ front back, text = front ++ '[' :: (inside ++ ']' :: back) ∧ IsInside inside ∧
        (after ⟨slashes, none⟩ front).slashes % 2 = 0 := by
  induction text generalizing slashes with
  | nil => simp
  | cons c rest ih =>
      rw [tagsFrom, closed?_start, Option.toList_none, List.nil_append]
      by_cases opens : c = '['
      · subst opens
        have later (front : Text) : (after ⟨slashes, none⟩ ('[' :: front)).slashes =
            (after ⟨0, none⟩ front).slashes := by
          rw [after_cons, next_open]
          exact slashes_after_congr (by rfl) front
        rw [next_open, tagsFrom_eq, List.mem_append, Option.mem_toList, ih]
        constructor
        · rintro (closes | ⟨front, back, rfl, isInside, even⟩)
          · dsimp only at closes
            split at closes
            case isTrue even =>
              obtain ⟨back, rfl, isInside⟩ := closing?_opened.mp closes
              exact ⟨[], back, rfl, isInside, even⟩
            case isFalse => simp at closes
          · exact ⟨'[' :: front, back, rfl, isInside, by rwa [later]⟩
        · rintro ⟨_ | ⟨d, front⟩, back, same, isInside, even⟩
          · obtain ⟨-, rfl⟩ := List.cons.inj same
            have even : slashes % 2 = 0 := even
            exact .inl (by rw [if_pos even]; exact closing?_opened.mpr ⟨back, rfl, isInside⟩)
          · obtain ⟨rfl, rfl⟩ := List.cons.inj same
            exact .inr ⟨front, back, rfl, isInside, by rwa [later] at even⟩
      · have still : next ⟨slashes, none⟩ c = ⟨(next ⟨slashes, none⟩ c).slashes, none⟩ :=
          congrArg (Reading.mk _) (inside_next opens)
        rw [still, ih, ← still]
        constructor
        · rintro ⟨front, back, rfl, isInside, even⟩
          exact ⟨c :: front, back, rfl, isInside, even⟩
        · rintro ⟨_ | ⟨d, front⟩, back, same, isInside, even⟩
          · exact absurd (List.cons.inj same).1 opens
          · obtain ⟨rfl, rfl⟩ := List.cons.inj same
            exact ⟨front, back, rfl, isInside, even⟩

end Reading

/-- A tag stands between brackets behind an even number of backslashes, begins as tags do, and has
no brackets in it. -/
theorem mem_tags {inside text : Text} :
    inside ∈ tags text ↔
      ∃ front back, text = front ++ '[' :: (inside ++ ']' :: back) ∧ IsInside inside ∧
        EndsEvenly front := by
  rw [tags_eq, Reading.start, Reading.mem_tagsFrom]
  simp only [EndsEvenly, ← Reading.slashes_after]
  rfl

/-- A tag stands somewhere in a text. -/
def HasTag (text : Text) : Prop :=
  ∃ front inside back, text = front ++ '[' :: (inside ++ ']' :: back) ∧ IsInside inside ∧
    EndsEvenly front

theorem tags_eq_nil_iff {text : Text} : tags text = [] ↔ ¬ HasTag text := by
  rw [List.eq_nil_iff_forall_not_mem]
  simp only [mem_tags, HasTag]
  constructor
  · rintro none ⟨front, inside, back, found⟩
    exact none inside ⟨front, back, found⟩
  · rintro none inside ⟨front, back, found⟩
    exact none ⟨front, inside, back, found⟩

end HarnessIndex.Markup
