import Lectern.Proofs.Json.Reading
import Lectern.Proofs.Text.Trim

/-!
# Passing over values

A value that nobody asks for is passed over whole, whatever it is and whatever it holds
(`reads_skipValue`): the reader stands behind it as if it had not been there. Lists and objects are
passed over entry by entry, and the bound on the entries and the nesting is never reached, since
every entry is shorter than what holds it.
-/

namespace Lectern.Json.Reader

/-! ## Numbers -/

section

variable {kind : Char → Prop} {rest : Text}

theorem stops_fraction {fraction : Text} (isFraction : IsFraction fraction) (point : kind '.')
    (stops : Stops kind rest) : Stops kind (fraction ++ rest) := by
  obtain rfl | ⟨places, _, rfl⟩ := isFraction
  · exact stops
  · rintro _ ⟨rfl⟩
    exact point

theorem stops_exponent {exponent : Text} (isExponent : IsExponent exponent)
    (letters : kind 'e' ∧ kind 'E') (stops : Stops kind rest) : Stops kind (exponent ++ rest) := by
  obtain rfl | ⟨letter, sign, digits, rfl | rfl, _, _, rfl⟩ := isExponent
  · exact stops
  · rintro _ ⟨rfl⟩
    exact letters.1
  · rintro _ ⟨rfl⟩
    exact letters.2

/-- Nothing that goes on a number stands where a value may end. -/
theorem stops_of_ends (ends : Ends rest) :
    Stops (fun c => c.isDigit = false ∧ c ≠ '.' ∧ c ≠ 'e' ∧ c ≠ 'E') rest := by
  intro c first
  rcases ends c first with space | rfl | rfl | rfl
  · simp only [isSpace, Bool.or_eq_true, beq_iff_eq] at space
    rcases space with ((rfl | rfl) | rfl) | rfl <;> decide
  all_goals decide

end

/-- The ten digits. -/
theorem eq_of_isDigit {c : Char} (isDigit : c.isDigit) :
    c = '0' ∨ c = '1' ∨ c = '2' ∨ c = '3' ∨ c = '4' ∨ c = '5' ∨ c = '6' ∨ c = '7' ∨ c = '8' ∨
      c = '9' := by
  have codes : ∀ code < 58, 48 ≤ code →
      Char.ofNat code ∈ ['0', '1', '2', '3', '4', '5', '6', '7', '8', '9'] := by decide
  rw [Char.isDigit, Bool.and_eq_true, decide_eq_true_iff, decide_eq_true_iff] at isDigit
  have found := codes c.toNat (Nat.lt_succ_of_le isDigit.2) isDigit.1
  rw [Char.ofNat_toNat] at found
  simpa using found

section

variable {rest : Text}

theorem someDigits_append {places : Text} (isDigits : IsDigits places)
    (stops : Stops (fun c => c.isDigit = false) rest) :
    someDigits (places ++ rest) = .ok ((), rest) := by
  obtain ⟨taken, left⟩ := Text.takeWhile_dropWhile_append isDigits.2 stops
  have read : digits (places ++ rest) = .ok (places, rest) := by rw [digits, taken, left]
  rw [someDigits, bind_of_ok read, if_neg isDigits.1]
  rfl

theorem skipInteger_append {integer : Text} (isInteger : IsInteger integer)
    (stops : Stops (fun c => c.isDigit = false) rest) :
    skipInteger (integer ++ rest) = .ok ((), rest) := by
  obtain ⟨isDigits, noZero⟩ := isInteger
  obtain ⟨c, places, rfl⟩ := List.exists_cons_of_ne_nil isDigits.1
  have here : peek (c :: places ++ rest) = .ok (some c, c :: places ++ rest) := rfl
  rw [skipInteger, bind_of_ok here]
  rcases eq_of_isDigit (isDigits.2 c List.mem_cons_self) with
    rfl | rfl | rfl | rfl | rfl | rfl | rfl | rfl | rfl | rfl
  case inl =>
    obtain ⟨-, rfl⟩ := List.cons.inj (noZero rfl)
    have next : peek rest = .ok (rest.head?, rest) := rfl
    have noDigit : rest.head?.any Char.isDigit = false := by
      rw [Option.any_eq_false_iff_get]
      intro some
      exact stops _ (Option.get_mem some)
    refine (bind_of_ok (advance_cons ..) _).trans ((bind_of_ok next _).trans ?_)
    rw [noDigit]
    rfl
  all_goals exact someDigits_append isDigits stops

theorem skipFraction_append {fraction : Text} (isFraction : IsFraction fraction)
    (stops : Stops (fun c => c.isDigit = false ∧ c ≠ '.') rest) :
    skipFraction (fraction ++ rest) = .ok ((), rest) := by
  obtain rfl | ⟨places, isDigits, rfl⟩ := isFraction
  · have here : peek rest = .ok (rest.head?, rest) := rfl
    have noPoint : rest.head? ≠ some '.' := fun point => (stops '.' point).2 rfl
    rw [List.nil_append, skipFraction, bind_of_ok here, if_neg noPoint]
    rfl
  · have here : peek ('.' :: places ++ rest) = .ok (some '.', '.' :: (places ++ rest)) := rfl
    rw [skipFraction, bind_of_ok here, if_pos rfl]
    exact (bind_of_ok (advance_cons ..) _).trans
      (someDigits_append isDigits fun c first => (stops c first).1)

/-- A sign of an exponent is taken if there is one in front of the digits. -/
theorem exponentSign_append {sign places : Text}
    (isSign : sign = [] ∨ sign = ['+'] ∨ sign = ['-']) (isDigits : IsDigits places)
    (rest : Text) :
    ∃ below, exponentSign (sign ++ (places ++ rest)) = .ok (below, places ++ rest) := by
  rcases isSign with rfl | rfl | rfl
  · obtain ⟨c, places, rfl⟩ := List.exists_cons_of_ne_nil isDigits.1
    refine ⟨false, ?_⟩
    rcases eq_of_isDigit (isDigits.2 c List.mem_cons_self) with
      rfl | rfl | rfl | rfl | rfl | rfl | rfl | rfl | rfl | rfl <;> rfl
  · exact ⟨false, rfl⟩
  · exact ⟨true, rfl⟩

theorem skipExponent_append {exponent : Text} (isExponent : IsExponent exponent)
    (stops : Stops (fun c => c.isDigit = false ∧ c ≠ 'e' ∧ c ≠ 'E') rest) :
    skipExponent (exponent ++ rest) = .ok ((), rest) := by
  obtain rfl | ⟨letter, sign, places, isLetter, isSign, isDigits, rfl⟩ := isExponent
  · have absent : exponentAhead rest = .ok (false, rest) := by
      have noLetter : rest.head? ≠ some 'e' ∧ rest.head? ≠ some 'E' :=
        ⟨fun small => (stops 'e' small).2.1 rfl, fun capital => (stops 'E' capital).2.2 rfl⟩
      have no : (rest.head? = some 'e' || rest.head? = some 'E' : Bool) = false := by
        simp [noLetter]
      change Except.ok ((rest.head? = some 'e' || rest.head? = some 'E' : Bool), rest) = _
      rw [no]
    rw [List.nil_append, skipExponent, bind_of_ok absent]
    rfl
  · have ahead : exponentAhead (letter :: (sign ++ places) ++ rest) =
        .ok (true, letter :: (sign ++ (places ++ rest))) := by
      rw [List.cons_append, List.append_assoc]
      rcases isLetter with rfl | rfl <;> rfl
    obtain ⟨below, signed⟩ := exponentSign_append isSign isDigits rest
    rw [skipExponent, bind_of_ok ahead, if_pos rfl]
    refine (bind_of_ok (advance_cons ..) _).trans ((bind_of_ok signed _).trans ?_)
    exact someDigits_append isDigits fun c first => (stops c first).1

/-- A number behind its sign is passed over up to where a value may end. -/
theorem skipNumber_append {integer fraction exponent : Text} (isInteger : IsInteger integer)
    (isFraction : IsFraction fraction) (isExponent : IsExponent exponent) (ends : Ends rest) :
    skipNumber (integer ++ (fraction ++ (exponent ++ rest))) = .ok ((), rest) := by
  have stops := stops_of_ends ends
  have behindFraction : Stops (fun c => c.isDigit = false ∧ c ≠ '.') (exponent ++ rest) :=
    stops_exponent isExponent (by decide) fun c first => ⟨(stops c first).1, (stops c first).2.1⟩
  have behindInteger : Stops (fun c => c.isDigit = false) (fraction ++ (exponent ++ rest)) :=
    stops_fraction isFraction rfl fun c first => (behindFraction c first).1
  rw [skipNumber, bind_of_ok (skipInteger_append isInteger behindInteger),
    bind_of_ok (skipFraction_append isFraction behindFraction)]
  exact skipExponent_append isExponent fun c first => ⟨(stops c first).1, (stops c first).2.2⟩

end

/-! ## Entries -/

namespace Brackets

/-- Passes over what follows the opening bracket or an entry, given how entries up to the end are
passed over. -/
def onward (brackets : Brackets) : Bool → Reader Unit → Reader Unit
  | true => brackets.opened
  | false => brackets.further

/-- The brackets are closed where a value may end, and not by a comma. -/
structure Closed (brackets : Brackets) : Prop where
  noSpace : isSpace brackets.close = false
  noComma : brackets.close ≠ ','
  ends : brackets.close = ']' ∨ brackets.close = '\x7d'

theorem closed_list : list.Closed := ⟨rfl, by decide, .inl rfl⟩

theorem closed_object : object.Closed := ⟨rfl, by decide, .inr rfl⟩

end Brackets

theorem onward_close {brackets : Brackets} (closed : brackets.Closed) {spaces : Text}
    (isSpaces : Spaces spaces) (isFirst : Bool) (entries : Reader Unit) (rest : Text) :
    brackets.onward isFirst entries (spaces ++ brackets.close :: rest) = .ok ((), rest) := by
  cases isFirst with
  | true =>
    rw [Brackets.onward, Brackets.opened, bind_peekToken isSpaces closed.noSpace]
    simp only [if_true]
    rfl
  | false =>
    rw [Brackets.onward, Brackets.further, bind_peekToken isSpaces closed.noSpace]
    simp only [if_neg closed.noComma, if_true]
    rfl

/-- Behind what leads an entry, the entries from it on are passed over. -/
theorem onward_entry {brackets : Brackets} {isFirst : Bool} {lead : Text}
    (leads : Leads isFirst lead) {c : Char} (token : isSpace c = false)
    (opens : c ≠ brackets.close) (entries : Reader Unit) (rest : Text) :
    ∃ gap, Spaces gap ∧
      brackets.onward isFirst entries (lead ++ c :: rest) = entries (gap ++ c :: rest) := by
  cases leads with
  | first isSpaces =>
    refine ⟨[], spaces_nil, ?_⟩
    rw [Brackets.onward, Brackets.opened, bind_peekToken isSpaces token]
    simp only [if_neg opens]
    rfl
  | @further before behind isSpaces isSpacesBehind =>
    refine ⟨behind, isSpacesBehind, ?_⟩
    rw [Brackets.onward, Brackets.further, List.append_assoc, List.cons_append,
      bind_peekToken isSpaces rfl]
    simp only [if_true]
    exact bind_of_ok (advance_cons ..) _

/-- Behind an entry stands what may follow a value. -/
theorem ends_entries {brackets : Brackets} (closed : brackets.Closed) {ε : Type}
    {Written : ε → Text → Prop} {entries : List ε} {text : Text}
    (layout : Entries brackets.close Written false entries text) (rest : Text) :
    Ends (text ++ rest) := by
  cases layout with
  | done isSpaces =>
    rw [List.append_assoc]
    refine ends_spaces isSpaces ?_
    rintro _ ⟨rfl⟩
    exact .inr (.inr closed.ends)
  | entry leads isWritten behind =>
    cases leads with
    | further isSpaces isSpacesBehind =>
      rw [List.append_assoc, List.append_assoc]
      refine ends_spaces isSpaces ?_
      rintro _ ⟨rfl⟩
      exact .inr (.inl rfl)

theorem length_entries_pos {close : Char} {ε : Type} {Written : ε → Text → Prop} {isFirst : Bool}
    {entries : List ε} {text : Text} (layout : Entries close Written isFirst entries text) :
    0 < text.length := by
  induction layout with
  | done isSpaces => simp
  | entry leads isWritten behind ih =>
    simp only [List.length_append]
    omega

/-- An entry that is passed over: it starts with a character that neither is a space nor closes the
brackets, and a bound above its length is enough. -/
structure PassedOver (brackets : Brackets) (written : Text) : Prop where
  starts : ∃ c behind, written = c :: behind ∧ isSpace c = false ∧ c ≠ brackets.close
  reads : ∀ bound, written.length ≤ bound →
    Reads (brackets.entry (skipValueWithin (bound + 1))) written ()

/-- Entries that are passed over one by one are passed over together, up to the end of them. -/
theorem onward_entries {brackets : Brackets} (closed : brackets.Closed) {ε : Type}
    {Written : ε → Text → Prop} {isFirst : Bool} {entries : List ε} {text : Text}
    (layout : Entries brackets.close Written isFirst entries text)
    (passed : ∀ entry ∈ entries, ∀ written, Written entry written → PassedOver brackets written)
    {bound : Nat} (enough : text.length < bound) (rest : Text) :
    brackets.onward isFirst (skipEntriesWithin brackets bound) (text ++ rest) = .ok ((), rest) := by
  induction layout generalizing bound with
  | done isSpaces =>
    rw [List.append_assoc]
    exact onward_close closed isSpaces _ _ rest
  | @entry isFirst lead written others entry entries leads isWritten behind ih =>
    have one := passed entry List.mem_cons_self written isWritten
    obtain ⟨c, written, rfl, token, opens⟩ := one.starts
    -- The entry and what follows it are both shorter than the text, which holds the two.
    have closing := length_entries_pos behind
    simp only [List.length_append, List.length_cons] at enough
    obtain ⟨bound, rfl⟩ : ∃ less, bound = less + 2 := Nat.exists_eq_add_of_le' (by omega)
    obtain ⟨gap, isSpaces, gone⟩ := onward_entry leads token opens
      (skipEntriesWithin brackets (bound + 2)) (written ++ (others ++ rest))
    have value := one.reads bound (by simp only [List.length_cons]; omega) gap isSpaces
      (others ++ rest) (ends_entries closed behind rest)
    have further : brackets.onward false (skipEntriesWithin brackets (bound + 1))
        (others ++ rest) = .ok ((), rest) :=
      ih (fun entry member => passed entry (List.mem_cons_of_mem _ member)) (by omega)
    simp only [List.append_assoc, List.cons_append] at value ⊢
    rw [gone, skipEntriesWithin, bind_of_ok value]
    exact further

/-! ## Values -/

/-- The first character of a value neither is a space nor closes a list. -/
theorem starts_value {written : Text} (wellformed : Wellformed written) :
    ∃ c behind, written = c :: behind ∧ isSpace c = false ∧ c ≠ ']' := by
  cases wellformed with
  | null => exact ⟨_, _, rfl, rfl, by decide⟩
  | bool value => cases value <;> exact ⟨_, _, rfl, rfl, by decide⟩
  | number isNumber =>
    obtain ⟨sign, integer, fraction, exponent, rfl | rfl, ⟨isDigits, -⟩, -, -, rfl⟩ := isNumber
    · obtain ⟨c, places, rfl⟩ := List.exists_cons_of_ne_nil isDigits.1
      refine ⟨c, _, rfl, ?_⟩
      rcases eq_of_isDigit (isDigits.2 c List.mem_cons_self) with
        rfl | rfl | rfl | rfl | rfl | rfl | rfl | rfl | rfl | rfl <;> decide
    · exact ⟨_, _, rfl, rfl, by decide⟩
  | text isUnquoted => exact ⟨_, _, rfl, rfl, by decide⟩
  | list layout values => exact ⟨_, _, rfl, rfl, by decide⟩
  | object layout values => exact ⟨_, _, rfl, rfl, by decide⟩

theorem reads_skipNumber {text : Text} (isNumber : IsNumber text) (bound : Nat) :
    Reads (skipValueWithin (bound + 1)) text () := by
  obtain ⟨sign, integer, fraction, exponent, isSign, isInteger, isFraction, isExponent, rfl⟩ :=
    isNumber
  have passed (rest : Text) (ends : Ends rest) :
      skipNumber (integer ++ (fraction ++ exponent) ++ rest) = .ok ((), rest) := by
    simp only [List.append_assoc]
    exact skipNumber_append isInteger isFraction isExponent ends
  rw [skipValueWithin]
  rcases isSign with rfl | rfl
  · obtain ⟨c, places, rfl⟩ := List.exists_cons_of_ne_nil isInteger.1.1
    rcases eq_of_isDigit (isInteger.1.2 c List.mem_cons_self) with
      rfl | rfl | rfl | rfl | rfl | rfl | rfl | rfl | rfl | rfl <;>
    exact reads_of_token rfl passed
  · exact reads_of_token rfl fun rest ends =>
      (bind_of_ok (advance_cons ..) _).trans (passed rest ends)

theorem skipText_unquoted {body : Text} (isUnquoted : Unquoted body) (rest : Text) :
    skipText (body ++ '"' :: rest) = .ok ((), rest) := by
  rw [skipText, passText_unquoted isUnquoted]
  rfl

theorem colon_spaces {spaces : Text} (isSpaces : Spaces spaces) (rest : Text) :
    colon (spaces ++ ':' :: rest) = .ok ((), rest) := by
  rw [colon, bind_peekToken isSpaces rfl]
  rfl

/-- A member is passed over where its value is. -/
theorem reads_skipMember {member : Text × Text} {written : Text}
    (isMember : Member (fun _ => Unquoted) member written) {value : Reader Unit}
    (reads : Reads value member.2 ()) : Reads (skipMember value) written () := by
  obtain ⟨isUnquoted, isSpaces, isSpacesBehind⟩ := isMember
  refine reads_of_token rfl fun rest ends => ?_
  simp only [List.cons_append, List.append_assoc]
  refine (bind_of_ok (advance_cons ..) _).trans ?_
  refine (bind_of_ok (skipText_unquoted isUnquoted _) _).trans ?_
  exact (bind_of_ok (colon_spaces isSpaces _) _).trans (reads _ isSpacesBehind rest ends)

theorem passedOver_member {member : Text × Text} {written : Text}
    (isMember : Member (fun _ => Unquoted) member written)
    (reads : ∀ bound, member.2.length ≤ bound →
      Reads (skipValueWithin (bound + 1)) member.2 ()) : PassedOver .object written where
  starts := by
    cases isMember
    exact ⟨_, _, rfl, rfl, by decide⟩
  reads := by
    intro bound enough
    refine reads_skipMember isMember (reads bound ?_)
    cases isMember
    simp only [List.length_cons, List.length_append] at enough ⊢
    omega

/-- A value is passed over, whatever it holds. -/
theorem reads_skipValueWithin {written : Text} (wellformed : Wellformed written) {bound : Nat}
    (enough : written.length ≤ bound) : Reads (skipValueWithin (bound + 1)) written () := by
  induction wellformed generalizing bound with
  | null =>
    rw [skipValueWithin]
    change Reads _ ('n' :: ("ull" : Text)) ()
    exact reads_of_token rfl fun rest _ => word_append "null" rest
  | bool value =>
    rw [skipValueWithin]
    cases value with
    | false =>
      change Reads _ ('f' :: ("alse" : Text)) ()
      exact reads_of_token rfl fun rest _ => word_append "false" rest
    | true =>
      change Reads _ ('t' :: ("rue" : Text)) ()
      exact reads_of_token rfl fun rest _ => word_append "true" rest
  | number isNumber => exact reads_skipNumber isNumber bound
  | text isUnquoted =>
    rw [skipValueWithin]
    refine reads_of_token rfl fun rest _ => (bind_of_ok (advance_cons ..) _).trans ?_
    rw [List.append_assoc]
    exact skipText_unquoted isUnquoted rest
  | list layout values ih =>
    rw [skipValueWithin]
    refine reads_of_token rfl fun rest _ => (bind_of_ok (advance_cons ..) _).trans ?_
    refine onward_entries Brackets.closed_list layout ?_ enough rest
    rintro item member _ rfl
    exact ⟨starts_value (values item member), fun _ => ih item member⟩
  | object layout values ih =>
    rw [skipValueWithin]
    refine reads_of_token rfl fun rest _ => (bind_of_ok (advance_cons ..) _).trans ?_
    refine onward_entries Brackets.closed_object layout ?_ enough rest
    intro member isMember written isWritten
    exact passedOver_member isWritten fun _ => ih member isMember

theorem reads_skipValue {written : Text} (wellformed : Wellformed written) :
    Reads skipValue written () := by
  intro spaces isSpaces rest ends
  refine reads_skipValueWithin wellformed ?_ spaces isSpaces rest ends
  simp only [List.length_append]
  omega

end Lectern.Json.Reader
