import Lectern.Proofs.Json.Texts

/-!
# Reading written values

Readers and written values: `Reads reader written value` says that a reader takes the written value
off the front of any text in which a value may end there. Reading steps are followed one by one
(`bind_of_ok`, `bind_peekToken`), and the texts, truth values and words that a field may hold are
read whichever way they are written.
-/

namespace Lectern.Json.Reader

variable {α β : Type}

/-- Whether a text is empty or starts with a character of the kind. -/
def Stops (kind : Char → Prop) (rest : Text) : Prop := ∀ c ∈ rest.head?, kind c

/-- Whether a value may end in front of a text: the text is empty, or starts with a space, a comma
or a closing bracket. -/
def Ends (rest : Text) : Prop :=
  Stops (fun c => isSpace c ∨ c = ',' ∨ c = ']' ∨ c = '\x7d') rest

/-- The reader takes a written value off the front, whatever spaces stand before it and whatever a
value may end in front of stands behind it. -/
def Reads (reader : Reader α) (written : Text) (value : α) : Prop :=
  ∀ spaces : Text, Spaces spaces → ∀ rest, Ends rest →
    reader (spaces ++ (written ++ rest)) = .ok (value, rest)

/-! ## Spaces -/

section

variable {spaces : Text} (isSpaces : Spaces spaces)
include isSpaces

theorem isSpace_of_spaces : ∀ c ∈ spaces, isSpace c := by
  intro c member
  rcases isSpaces c member with rfl | rfl | rfl | rfl <;> rfl

theorem dropWhile_spaces (rest : Text) :
    (spaces ++ rest).dropWhile isSpace = rest.dropWhile isSpace :=
  List.dropWhile_append_of_pos (isSpace_of_spaces isSpaces)

theorem ends_spaces {rest : Text} (ends : Ends rest) : Ends (spaces ++ rest) := by
  cases spaces with
  | nil => exact ends
  | cons c spaces =>
    rintro _ ⟨rfl⟩
    exact .inl (isSpace_of_spaces isSpaces c List.mem_cons_self)

end

theorem ends_nil : Ends [] := by simp [Ends, Stops]

/-- A text that is a written value between spaces is read as a whole. -/
theorem Reads.whole {reader : Reader α} {written : Text} {value : α}
    (reads : Reads reader written value) {before behind : Text} (isSpaces : Spaces before)
    (isSpacesBehind : Spaces behind) :
    Reader.whole reader (before ++ (written ++ behind)) = .ok value := by
  have ends : Ends behind := by simpa using ends_spaces isSpacesBehind ends_nil
  have dropped : behind.dropWhile isSpace = [] := by
    simpa using dropWhile_spaces isSpacesBehind []
  rw [Reader.whole, reads before isSpaces behind ends]
  simp only [bind, Except.bind, dropped]

/-! ## Steps -/

theorem bind_of_ok {reader : Reader α} {unread rest : Text} {value : α}
    (read : reader unread = .ok (value, rest)) (next : α → Reader β) :
    (reader >>= next) unread = next value rest := by
  change (reader unread >>= fun answer => next answer.1 answer.2) = next value rest
  rw [read]
  rfl

theorem peekToken_spaces {spaces : Text} (isSpaces : Spaces spaces) {c : Char}
    (token : isSpace c = false) (rest : Text) :
    peekToken (spaces ++ c :: rest) = .ok (some c, c :: rest) := by
  have dropped : (spaces ++ c :: rest).dropWhile isSpace = c :: rest := by
    rw [dropWhile_spaces isSpaces, List.dropWhile_cons_of_neg (by simp [token])]
  rw [peekToken, dropped]
  rfl

/-- A reader that looks for a token goes on at the first character that is no space. -/
theorem bind_peekToken {spaces : Text} (isSpaces : Spaces spaces) {c : Char}
    (token : isSpace c = false) (rest : Text) (next : Option Char → Reader β) :
    (peekToken >>= next) (spaces ++ c :: rest) = next (some c) (c :: rest) :=
  bind_of_ok (peekToken_spaces isSpaces token rest) next

/-- A reader that looks for a token takes a written value off if it does so from its first character
on. -/
theorem reads_of_token {next : Option Char → Reader α} {c : Char} {behind : Text} {value : α}
    (token : isSpace c = false)
    (goes : ∀ rest, Ends rest → next (some c) (c :: (behind ++ rest)) = .ok (value, rest)) :
    Reads (peekToken >>= next) (c :: behind) value := by
  intro spaces isSpaces rest ends
  rw [List.cons_append, bind_peekToken isSpaces token]
  exact goes rest ends

theorem advance_cons (c : Char) (rest : Text) : advance (c :: rest) = .ok ((), rest) := rfl

theorem word_append (letters rest : Text) : word letters (letters ++ rest) = .ok ((), rest) := by
  induction letters with
  | nil => rfl
  | cons c letters ih =>
    have here : peek (c :: (letters ++ rest)) = .ok (some c, c :: (letters ++ rest)) := rfl
    rw [List.cons_append, word, bind_of_ok here]
    simp only [if_true]
    exact ih

/-! ## Values -/

theorem Reads.map {reader : Reader α} {written : Text} {value : α}
    (reads : Reads reader written value) (change : α → β) :
    Reads (do pure (change (← reader))) written (change value) := by
  intro spaces isSpaces rest ends
  rw [bind_of_ok (reads spaces isSpaces rest ends)]
  rfl

theorem reads_text {value written : Text} (writes : WritesText value written) :
    Reads text written value := by
  obtain ⟨body, spelled, rfl⟩ := writes
  refine reads_of_token rfl fun rest _ => ?_
  rw [List.append_assoc]
  exact scanText_spelled spelled rest

theorem reads_optionalText {value : Option Text} {written : Text}
    (writes : WritesOptionalText value written) : Reads optionalText written value := by
  cases value with
  | none =>
    obtain rfl : written = 'n' :: ("ull" : Text) := writes
    exact reads_of_token rfl fun rest _ => bind_of_ok (word_append "null" rest) _
  | some value =>
    have reads := (reads_text writes).map some
    obtain ⟨body, spelled, rfl⟩ := writes
    exact reads_of_token rfl fun rest ends => reads [] spaces_nil rest ends

theorem reads_bool {value : Bool} {written : Text} (writes : WritesBool value written) :
    Reads bool written value := by
  obtain rfl := writes
  cases value with
  | false =>
    change Reads bool ('f' :: ("alse" : Text)) false
    exact reads_of_token rfl fun rest _ => bind_of_ok (word_append "false" rest) _
  | true =>
    change Reads bool ('t' :: ("rue" : Text)) true
    exact reads_of_token rfl fun rest _ => bind_of_ok (word_append "true" rest) _

end Lectern.Json.Reader
