import Lectern.Proofs.Latex.Token

/-!
# Nesting of environments

A stack machine that reads the tokens of a LaTeX text. It accepts a start only where the environment
may stand, an end only for the innermost open environment, and an item only directly inside a list;
a list without items cannot end. `WellNested` says that a text is one document to this machine.
-/

namespace Lectern.Latex

/-- An open environment, and whether it has an item. -/
structure Environment where
  name : Text
  hasItem : Bool
  deriving DecidableEq

namespace Nesting

/-- Whether an environment may start inside these open ones, the innermost first. The document is
outermost, a frame is in no frame, a column directly in columns, and these directly in a frame. -/
def MayOpen (name : Text) (stack : List Environment) : Prop :=
  (name = "document" ↔ stack = []) ∧
    (name = "frame" → ∀ environment ∈ stack, environment.name ≠ "frame") ∧
    (name = "column" → stack.head?.map Environment.name = some ("columns" : Text)) ∧
    (name = "columns" → stack.head?.map Environment.name = some ("frame" : Text))

instance (name : Text) (stack : List Environment) : Decidable (MayOpen name stack) :=
  inferInstanceAs (Decidable (_ ∧ _))

/-- The open environments behind a token; `none` where the token may not stand. -/
def step? : List Environment → Token → Option (List Environment)
  | stack, .opens name => if MayOpen name stack then some (⟨name, false⟩ :: stack) else none
  | innermost :: outer, .closes name =>
    if innermost.name = name ∧ (name = "itemize" → innermost.hasItem) then some outer else none
  | innermost :: outer, .item =>
    if innermost.name = "itemize" then some (⟨innermost.name, true⟩ :: outer) else none
  | [], _ => none

/-- The open environments behind some tokens. -/
def run? : List Environment → List Token → Option (List Environment)
  | stack, [] => some stack
  | stack, token :: rest => (step? stack token).bind fun stack => run? stack rest

/-- Lines inside a document lead from open environments to others if their tokens may stand one
after another and start no document. -/
structure Leads (stack : List Environment) (lines : List Text) (behind : List Environment) :
    Prop where
  run : run? stack (lines.flatMap tokens) = some behind
  noDocument : .opens "document" ∉ lines.flatMap tokens

end Nesting

/-- A text that is one document with all its environments nested and lists filled, closed by its
last line. -/
structure WellNested (text : Text) : Prop where
  nested : Nesting.run? [] (tokens text) = some []
  oneDocument : (tokens text).count (.opens "document") = 1
  lastLine : (text.splitOn '\n').getLast? = some (closing "document")

namespace Nesting

theorem run?_append (stack : List Environment) (first second : List Token) :
    run? stack (first ++ second) = (run? stack first).bind fun stack => run? stack second := by
  induction first generalizing stack with
  | nil => rfl
  | cons token first ih =>
    rw [List.cons_append, run?, run?]
    cases step? stack token with
    | none => rfl
    | some stack => exact ih stack

/-- Any other environment may start inside an open one. -/
theorem mayOpen_of_other {name : Text}
    (other : name ∉ [("document" : Text), "frame", "column", "columns"])
    {stack : List Environment} (inside : stack ≠ []) : MayOpen name stack := by
  simp only [List.mem_cons, List.not_mem_nil, or_false, not_or] at other
  obtain ⟨noDocument, noFrame, noColumn, noColumns⟩ := other
  refine ⟨⟨fun same => absurd same noDocument, fun empty => absurd empty inside⟩, ?_, ?_, ?_⟩
  · exact fun same => absurd same noFrame
  · exact fun same => absurd same noColumn
  · exact fun same => absurd same noColumns

theorem step?_opens {name : Text} {stack : List Environment} (may : MayOpen name stack) :
    step? stack (.opens name) = some (⟨name, false⟩ :: stack) := by
  rw [step?, if_pos may]

theorem step?_closes {innermost : Environment}
    (filled : innermost.name = "itemize" → innermost.hasItem) (outer : List Environment) :
    step? (innermost :: outer) (.closes innermost.name) = some outer := by
  rw [step?]
  exact if_pos ⟨rfl, filled⟩

theorem step?_item (hasItem : Bool) (outer : List Environment) :
    step? (⟨"itemize", hasItem⟩ :: outer) .item = some (⟨"itemize", true⟩ :: outer) := by
  rw [step?]
  exact if_pos rfl

namespace Leads

variable {stack middle behind : List Environment} {first second lines : List Text} {line : Text}

theorem nil : Leads stack [] stack := ⟨rfl, List.not_mem_nil⟩

theorem append (leadsFirst : Leads stack first middle) (leadsSecond : Leads middle second behind) :
    Leads stack (first ++ second) behind := by
  constructor
  · rw [List.flatMap_append, run?_append, leadsFirst.run, Option.bind_some, leadsSecond.run]
  · rw [List.flatMap_append, List.mem_append, not_or]
    exact ⟨leadsFirst.noDocument, leadsSecond.noDocument⟩

/-- A line with one token leads as far as the token. -/
theorem oneToken {token : Token} (tokensOf : tokens line = [token])
    (step : step? stack token = some behind) (notDocument : token ≠ .opens "document") :
    Leads stack [line] behind := by
  have all : [line].flatMap tokens = [token] := by rw [List.flatMap_singleton, tokensOf]
  constructor
  · rw [all, run?, step, Option.bind_some, run?]
  · rw [all, List.mem_singleton]
    exact Ne.symm notDocument

/-- Lines without tokens change nothing. -/
theorem quiet (noTokens : ∀ line ∈ lines, tokens line = []) : Leads stack lines stack := by
  have none : lines.flatMap tokens = [] := List.flatMap_eq_nil_iff.mpr noTokens
  constructor
  · rw [none, run?]
  · rw [none]
    exact List.not_mem_nil

theorem quietLine (noTokens : tokens line = []) : Leads stack [line] stack := by
  apply quiet
  intro other member
  rwa [List.mem_singleton.mp member]

/-- A repeated part that returns to its start may stand any number of times. -/
theorem flatMap {α : Type} {items : List α} {part : α → List Text}
    (each : ∀ item ∈ items, Leads stack (part item) stack) :
    Leads stack (items.flatMap part) stack := by
  induction items with
  | nil => exact nil
  | cons item items ih =>
    rw [List.flatMap_cons]
    refine append (each item (by simp)) (ih ?_)
    intro other member
    exact each other (by simp [member])

/-- An environment around lines that return to its inside. -/
theorem environment {name opener closer : Text} (may : MayOpen name stack)
    (other : name ≠ "itemize" ∧ name ≠ "document") (opensName : tokens opener = [.opens name])
    (inside : Leads (⟨name, false⟩ :: stack) lines (⟨name, false⟩ :: stack))
    (closesName : tokens closer = [.closes name]) :
    Leads stack ([opener] ++ lines ++ [closer]) stack := by
  obtain ⟨notList, notDocument⟩ := other
  have start : Leads stack [opener] (⟨name, false⟩ :: stack) :=
    oneToken opensName (step?_opens may) fun same => notDocument (Token.opens.inj same)
  have closed : step? (⟨name, false⟩ :: stack) (.closes name) = some stack :=
    step?_closes (fun same => absurd same notList) stack
  have stop : Leads (⟨name, false⟩ :: stack) [closer] stack :=
    oneToken closesName closed (fun same => nomatch same)
  exact (start.append inside).append stop

end Leads
end Nesting
end Lectern.Latex
