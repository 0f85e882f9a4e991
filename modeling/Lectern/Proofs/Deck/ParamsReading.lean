import Lectern.Proofs.Deck.Source
import Lectern.Proofs.OrderedMap
import Lectern.Proofs.Text.Occurrence

/-!
# Reading parameter lists

A written value is read back between its quotes, a written binding around its first equals sign,
and a written list as the same parameters, whatever order it has them in.
-/

namespace Lectern

/-! ## Quoted values and bindings -/

/-- A value between double quotes is read back whole, whatever quotes it has itself. -/
theorem Params.stripQuotes_quoted (value : Text) :
    stripQuotes ('"' :: (value ++ ['"'])) = value := by
  simp [stripQuotes]

theorem Text.trim_quoted (value : Text) :
    trim ('"' :: (value ++ ['"'])) = '"' :: (value ++ ['"']) := by
  apply trim_eq_self
  · intro c first
    obtain rfl : '"' = c := by simpa using first
    decide
  · intro c last
    have closing : ('"' :: (value ++ ['"'])).getLast? = some '"' := by
      rw [← List.cons_append, List.getLast?_concat]
    obtain rfl : '"' = c := by simpa [closing] using last
    decide

namespace Params

theorem bindingSource_eq (binding : Text × Text) :
    bindingSource binding = binding.1 ++ '=' :: '"' :: (binding.2 ++ ['"']) := by
  simp [bindingSource]

/-- A token binds what stands around its first equals sign. -/
theorem binding?_append {key : Text} (noEquals : '=' ∉ key) (value : Text) :
    binding? (key ++ '=' :: value) = some (Text.trim key, stripQuotes (Text.trim value)) := by
  rw [binding?, Text.cutAt_append noEquals, Option.map_some]

/-- Blanks around a token are not seen, and an empty one binds nothing. -/
theorem readsTrimmed_binding? : Text.ReadsTrimmed binding? where
  front := by
    intro c token blank
    have notEquals : c ≠ '=' := Text.ne_of_blank blank rfl
    have trimmed (key : Text) : Text.trim (c :: key) = Text.trim key :=
      Text.trim_cons_of_blank blank key
    simp [binding?, Text.cutAt, notEquals, Function.comp_def, trimmed]
  behind := by
    intro c token blank
    have notEquals : c ≠ '=' := Text.ne_of_blank blank rfl
    have trimmed (value : Text) : Text.trim (value ++ [c]) = Text.trim value :=
      Text.trim_concat_of_blank blank value
    simp [binding?, Text.cutAt_concat notEquals, Function.comp_def, trimmed]
  empty := rfl

theorem stripQuotes_isInfix (text : Text) : stripQuotes text <:+: text := by
  have closed (opened : Text) :
      (if opened.getLast? = some '"' then opened.dropLast else opened) <+: opened := by
    split
    · exact List.dropLast_prefix opened
    · exact List.prefix_refl opened
  refine (closed _).isInfix.trans ?_
  split
  · exact (List.suffix_cons ..).isInfix
  · exact List.infix_refl text

/-- Key and value of a binding are parts of its token, and the key has no equals sign. -/
theorem of_binding?_eq_some {token : Text} {binding : Text × Text}
    (read : binding? token = some binding) :
    Text.trim binding.1 = binding.1 ∧ '=' ∉ binding.1 ∧ binding.1 <:+: token ∧
      binding.2 <:+: token := by
  obtain ⟨⟨key, value⟩, cut, rfl⟩ := Option.map_eq_some_iff.mp read
  obtain ⟨rfl, noEquals⟩ := Text.eq_of_cutAt_eq_some cut
  have inKey := Text.trim_isInfix key
  have inValue := (stripQuotes_isInfix (Text.trim value)).trans (Text.trim_isInfix value)
  refine ⟨Text.trim_trim key, fun member => noEquals (inKey.subset member), ?_, ?_⟩
  · exact inKey.trans (List.prefix_append key _).isInfix
  · exact inValue.trans ((List.suffix_cons '=' value).trans (List.suffix_append key _)).isInfix

/-! ## Parameter lists -/

theorem binding?_bindingSource {binding : Text × Text} (writable : WritableBinding binding) :
    binding? (bindingSource binding) = some binding := by
  rw [bindingSource_eq, binding?_append writable.noEqualsInKey, writable.trimmedKey,
    Text.trim_quoted, stripQuotes_quoted]

theorem noComma_bindingSource {binding : Text × Text} (writable : WritableBinding binding) :
    ',' ∉ bindingSource binding := by
  simp [bindingSource_eq, writable.noCommaInKey, writable.noCommaInValue]

theorem noFeed_bindingSource {binding : Text × Text} (writable : WritableBinding binding) :
    '\n' ∉ bindingSource binding := by
  simp [bindingSource_eq, writable.noFeedInKey, writable.noFeedInValue]

theorem listSource_cons_cons (first second : Text × Text) (more : List (Text × Text)) :
    listSource (first :: second :: more) =
      bindingSource first ++ ',' :: (' ' :: listSource (second :: more)) := by
  simp [listSource, List.intercalate_cons_cons]

/-- The tokens of a written list bind its parameters in order. The space behind a comma goes to the
token behind it, so the statement is about lists with and without a space in front. -/
theorem filterMap_tokens_listSource {bindings : List (Text × Text)}
    (writable : ∀ binding ∈ bindings, WritableBinding binding) :
    (tokens (listSource bindings)).filterMap binding? = bindings ∧
      (tokens (' ' :: listSource bindings)).filterMap binding? = bindings := by
  induction bindings with
  | nil => exact ⟨rfl, rfl⟩
  | cons first more ih =>
    have readFirst := binding?_bindingSource (writable first (by simp))
    have noComma := noComma_bindingSource (writable first (by simp))
    have noCommaBehind : ',' ∉ ' ' :: bindingSource first := by simp [noComma]
    have blank : Text.isBlank ' ' := by decide
    have spaced := readsTrimmed_binding?.front (bindingSource first) blank
    obtain ⟨-, readMore⟩ := ih fun binding member => writable binding (by simp [member])
    rw [tokens] at readMore
    cases more with
    | nil =>
      have single : listSource [first] = bindingSource first := by simp [listSource]
      rw [single, tokens, tokens, List.splitOn_eq_singleton noComma,
        List.splitOn_eq_singleton noCommaBehind]
      simp [spaced, readFirst]
    | cons second more =>
      rw [listSource_cons_cons, tokens, tokens, ← List.cons_append,
        List.splitOn_append_cons_self_of_not_mem noComma,
        List.splitOn_append_cons_self_of_not_mem noCommaBehind]
      simp [spaced, readFirst, readMore]

/-- A written list is read back, in whatever order it has the parameters. -/
theorem ofText_listSource {params : Params} {bindings : List (Text × Text)}
    (order : bindings.Perm params.entries)
    (writable : ∀ binding ∈ params.entries, WritableBinding binding) :
    ofText (listSource bindings) = params := by
  have writableHere : ∀ binding ∈ bindings, WritableBinding binding :=
    fun binding member => writable binding (order.mem_iff.mp member)
  rw [ofText, (filterMap_tokens_listSource writableHere).1, OrderedMap.ofList_of_perm order]

theorem noFeed_listSource {bindings : List (Text × Text)}
    (writable : ∀ binding ∈ bindings, WritableBinding binding) :
    '\n' ∉ listSource bindings := by
  induction bindings with
  | nil => simp [listSource]
  | cons first more ih =>
    have noFeed := noFeed_bindingSource (writable first (by simp))
    have noFeedBehind := ih fun binding member => writable binding (by simp [member])
    cases more with
    | nil => simpa [listSource] using noFeed
    | cons second more => simp [listSource_cons_cons, noFeed, noFeedBehind]

namespace Source

variable {params : Params} {list : Text}

/-- A list opens with a parenthesis, which ends the type word in front of it. -/
theorem notWord (source : params.Source list) : ∀ c ∈ list.head?, Text.isWordChar c = false := by
  cases source with
  | list order =>
    intro c first
    obtain rfl : '(' = c := by simpa using first
    decide +kernel
  | absent empty => simp

theorem notBlank (source : params.Source list) : ∀ c ∈ list.getLast?, Text.isBlank c = false := by
  cases source with
  | list order =>
    intro c last
    rw [List.getLast?_append_of_ne_nil _ (by decide)] at last
    obtain rfl : ')' = c := by simpa using last
    decide
  | absent empty => simp

theorem noFeed (source : params.Source list)
    (writable : ∀ binding ∈ params.entries, WritableBinding binding) : '\n' ∉ list := by
  cases source with
  | list order =>
    have inner := noFeed_listSource fun binding member => writable binding (order.mem_iff.mp member)
    simp [inner]
  | absent empty => simp

end Source
end Params

end Lectern
